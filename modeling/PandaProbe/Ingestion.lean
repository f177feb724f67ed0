import PandaProbe.GuardedRun
import PandaProbe.TraceContent
import PandaProbe.UsageRollback

/-! # The ingestion pipeline

`POST /traces` charges the organization for one trace and puts the payload on the queue; if the
payload does not get there the charge is rolled back.  Workers take payloads from the queue and
merge them into the tables.  A worker that raises is retried three times, one that runs into a
time limit is not, either may have committed before; and the broker may deliver a message twice.
Any number of requests and workers are under way.

`ingestion_converges` says what the tables hold after such a run, whatever the interleaving.  The
content of each row is what the payloads leave when each is written once, in the order of their
last writes; what a row keeps from its insert comes from the first payload that named it.  With
it go the accounts: a unit for each payload that was accepted, a fate for each delivery, and four
attempts for each at most.

The law is about a stretch in which no trace is patched or deleted and the subscription stays as
it is.  A payload that comes off the queue is the one that was put on it.
-/
namespace PandaProbe

/-- How an attempt of `process_trace` ends: it returns, raises, runs into the soft time limit, or
is killed with its worker. -/
inductive IngestEnd
  | returned | raised | timedOut | killed
  deriving DecidableEq

/-- The counters, the requests that are charged and not yet queued, the payloads that were queued,
the queue (a message and the retries it has behind it), and the tables; and what has happened:
the writes, and the messages delivered, attempted, reported persisted and given up. -/
structure IngestRun where
  usage : UsageState
  requests : List Trace
  messages : List Trace
  queue : List (Nat × Nat)
  db : TraceDb
  written : List (Nat × DateTime)
  delivered : List Nat
  attempts : List Nat
  settled : List Nat
  lost : List Nat

/-- What can happen next.  The ids are those drawn for the quota scripts. -/
inductive IngestAct
  | charge (body : Trace) (projectId id : UUID)
  | enqueue (r : Nat)
  | enqueueFails (r : Nat) (id : UUID)
  | attempt (j : Nat) (now : DateTime) (committed : Bool) (ending : IngestEnd)
  | redeliver (j : Nat)

/-- The trace of a request body: the project is the request's, and its spans are put under it. -/
def ingestTrace (projectId : UUID) (body : Trace) : Trace :=
  { body with
    projectId := projectId
    spans := body.spans.map fun s => { s with traceId := body.traceId } }

/-- `max_retries` of `process_trace`. -/
def maxRetries : Nat := 3

namespace IngestRun
variable (orgId : UUID) (s : IngestRun)

/-- One attempt at the message in a place of the queue.  What it returns it has committed. -/
def attempt (j : Nat) (now : DateTime) (committed : Bool) (ending : IngestEnd) : Option IngestRun :=
  match s.queue[j]? with
  | none => none
  | some (i, retries) =>
    match s.messages[i]? with
    | none => none
    | some t =>
      let wrote := committed && (s.db.upsertTrace now t).isSome
      if ending = .returned ∧ wrote = false then none
      else
        let s' := { s with
          queue := s.queue.eraseIdx j
          attempts := s.attempts ++ [i]
          db := if wrote then s.db.persistTrace now t else s.db
          written := if wrote then s.written ++ [(i, now)] else s.written }
        match ending with
        | .returned => some { s' with settled := s.settled ++ [i] }
        | .raised =>
          if retries < maxRetries then
            some { s' with queue := s.queue.eraseIdx j ++ [(i, retries + 1)] }
          else some { s' with lost := s.lost ++ [i] }
        | .timedOut | .killed => some { s' with lost := s.lost ++ [i] }

/-- One phase of a request, attempt or redelivery. -/
def step : IngestAct → Option IngestRun
  | .charge body projectId id =>
    match s.usage.checkAndIncrement orgId .traces 1 id with
    | (usage, .ok _) =>
      some { s with usage := usage, requests := s.requests ++ [ingestTrace projectId body] }
    | (usage, .error _) => some { s with usage := usage }
  | .enqueue r =>
    match s.requests[r]? with
    | none => none
    | some t => some { s with
        requests := s.requests.eraseIdx r
        messages := s.messages ++ [t]
        queue := s.queue ++ [(s.messages.length, 0)]
        delivered := s.delivered ++ [s.messages.length] }
  | .enqueueFails r id =>
    match s.requests[r]? with
    | none => none
    | some _ => some { s with
        usage := s.usage.rollbackIncrement orgId .traces 1 id
        requests := s.requests.eraseIdx r }
  | .attempt j now committed ending => s.attempt j now committed ending
  | .redeliver j =>
    match s.queue[j]? with
    | none => none
    | some e => some { s with queue := s.queue ++ [e], delivered := s.delivered ++ [e.1] }

/-- The counters and the tables before the first request. -/
def initial (usage : UsageState) (db : TraceDb) : IngestRun :=
  ⟨usage, [], [], [], db, [], [], [], [], []⟩

/-- The ids drawn for the quota scripts are new. -/
def NewIds (s : IngestRun) : IngestAct → Prop
  | .charge _ _ id | .enqueueFails _ id => s.usage.Fresh id
  | _ => True

/-! ## The accounts -/

/-- What a queue may still attempt on a message. -/
def budget (i : Nat) (queue : List (Nat × Nat)) : Nat :=
  (queue.map fun e => if e.1 = i then maxRetries + 1 - e.2 else 0).sum

/-- **The accounts**: a unit for each payload queued and each request that is charged, every
delivery queued, persisted or given up, and four attempts for each delivery at most. -/
structure Accounted (usage : UsageState) (s : IngestRun) : Prop where
  charged : ∀ k f, s.usage.redis.value k f = usage.redis.value k f +
    UsageState.unitsAt orgId usage.visible .traces (s.messages.length + s.requests.length) k f
  known : ∀ i, i ∈ s.delivered ↔ i < s.messages.length
  fate : ∀ i, s.delivered.count i =
    (s.queue.map Prod.fst).count i + s.settled.count i + s.lost.count i
  settled : ∀ i ∈ s.settled, i ∈ s.written.map Prod.fst
  attempts : ∀ i, s.attempts.count i + budget i s.queue ≤ (maxRetries + 1) * s.delivered.count i

/-- The accounts, with what keeps them; and the tables are what the log of writes has made of
them. -/
structure Sound (usage : UsageState) (db : TraceDb) (s : IngestRun) : Prop
    extends Accounted orgId usage s where
  visible : s.usage.visible = usage.visible
  queued : ∀ t ∈ s.messages, TraceDb.OwnSpans t
  requested : ∀ t ∈ s.requests, TraceDb.OwnSpans t
  retries : ∀ e ∈ s.queue, e.2 ≤ maxRetries
  written : ∀ e ∈ s.written, e.1 < s.messages.length
  tables : s.db = db.writeLog s.messages s.written

variable {orgId s} {usage : UsageState} {db : TraceDb} {s' : IngestRun}

theorem sound_initial : Sound orgId usage db (initial usage db) where
  charged k f := by
    cases usage.visible <;> simp [initial]
  known i := by simp [initial]
  fate i := by simp [initial]
  settled i hi := by cases hi
  attempts i := by simp [initial, budget]
  visible := rfl
  queued t ht := by cases ht
  requested t ht := by cases ht
  retries e he := by cases he
  written e he := by cases he
  tables := rfl

theorem ownSpans_ingestTrace (projectId : UUID) (body : Trace) :
    TraceDb.OwnSpans (ingestTrace projectId body) := by
  intro s hs
  obtain ⟨x, -, rfl⟩ := List.mem_map.mp hs
  rfl

theorem unitsAt_add (sub : Option Subscription) (c : UsageCategory) (m n : Int) (k : String)
    (f : UsageCategory) : UsageState.unitsAt orgId sub c (m + n) k f =
      UsageState.unitsAt orgId sub c m k f + UsageState.unitsAt orgId sub c n k f := by
  cases sub with
  | none => rfl
  | some sub =>
    simp only [UsageState.unitsAt_some]
    split <;> simp

theorem unitsAt_nonneg (sub : Option Subscription) (c : UsageCategory) (n : Nat) (k : String)
    (f : UsageCategory) : 0 ≤ UsageState.unitsAt orgId sub c n k f := by
  cases sub with
  | none => exact le_refl _
  | some sub =>
    simp only [UsageState.unitsAt_some]
    split
    · exact Int.natCast_nonneg n
    · exact le_refl _

theorem visible_cached (st : UsageState) : st.getSubscriptionCached.1.visible = st.visible := by
  unfold UsageState.getSubscriptionCached UsageState.visible
  cases hc : st.cache with
  | some sub => simp [hc]
  | none => cases hs : st.db.subscription <;> simp [hc, hs]

/-- Counting leaves what a cached read sees. -/
theorem visible_checkAndIncrement (st : UsageState) (c : UsageCategory) (n : Int) (id : UUID) :
    (st.checkAndIncrement orgId c n id).1.visible = st.visible := by
  unfold UsageState.checkAndIncrement
  simp only [UsageState.getSubscriptionCached_snd]
  split
  · exact visible_cached st
  · split
    · exact visible_cached st
    · split <;> exact visible_cached st

theorem visible_rollbackIncrement (st : UsageState) (c : UsageCategory) (n : Int) (id : UUID) :
    (st.rollbackIncrement orgId c n id).visible = st.visible := by
  unfold UsageState.rollbackIncrement
  simp only [UsageState.getSubscriptionCached_snd]
  split <;> exact visible_cached st

/-! ## One step -/

/-- **A request is charged or refused.**  A counter that is not negative never reads as the
script's refusal. -/
theorem sound_charge (hs : Sound orgId usage db s) (h₀ : ∀ k f, 0 ≤ usage.redis.value k f)
    {body : Trace} {projectId id : UUID} (hid : s.usage.Fresh id)
    (h : s.step orgId (.charge body projectId id) = some s') : Sound orgId usage db s' := by
  have hvisible : (s.usage.checkAndIncrement orgId .traces 1 id).1.visible = s.usage.visible :=
    visible_checkAndIncrement s.usage .traces 1 id
  have hcases := @UsageState.checkAndIncrement_cases orgId s.usage .traces 1 id hid
  dsimp only [step] at h
  generalize s.usage.checkAndIncrement orgId .traces 1 id = r at h hvisible hcases
  obtain ⟨st, answer⟩ := r
  dsimp only at h hvisible hcases
  rw [hs.visible] at hvisible hcases
  rcases hcases with ⟨e, rfl, hsame⟩ | ⟨sub, hsub, hadd, rfl | ⟨hneg, -⟩⟩
  · cases h
    exact { hs with
      charged := fun k f => (hsame k f).trans (hs.charged k f)
      visible := hvisible }
  · cases h
    refine { hs with charged := fun k f => ?_, visible := hvisible, requested := fun t ht => ?_ }
    · rw [hadd, hs.charged, List.length_append, List.length_singleton, Nat.cast_add, ← add_assoc,
        unitsAt_add _ _ _ ((1 : Nat) : Int)]
      exact add_assoc _ _ _
    · rcases List.mem_append.mp ht with ht | ht
      · exact hs.requested t ht
      · obtain rfl := List.mem_singleton.mp ht
        exact ownSpans_ingestTrace projectId body
  · -- the counter is at least zero
    exfalso
    have hvalue := hs.charged (usageKey orgId sub.currentPeriodStart) .traces
    have hstart := h₀ (usageKey orgId sub.currentPeriodStart) .traces
    have hunits : 0 ≤ UsageState.unitsAt orgId usage.visible .traces
        ((s.messages.length + s.requests.length : Nat) : Int)
        (usageKey orgId sub.currentPeriodStart) .traces := unitsAt_nonneg ..
    rw [Nat.cast_add] at hunits
    omega

theorem length_requests {r : Nat} {t : Trace} (h : s.requests[r]? = some t) :
    (s.requests.eraseIdx r).length + 1 = s.requests.length := by
  obtain ⟨hr, -⟩ := List.getElem?_eq_some_iff.mp h
  rw [List.length_eraseIdx_of_lt hr]
  omega

theorem budget_append (i : Nat) (queue rest : List (Nat × Nat)) :
    budget i (queue ++ rest) = budget i queue + budget i rest := by
  simp [budget]

theorem budget_singleton (i j n : Nat) :
    budget i [(j, n)] = if j = i then maxRetries + 1 - n else 0 := by
  simp [budget]

/-- A payload that is written out of an old list of messages is written out of a longer one. -/
theorem writeLog_append {messages : List Trace} {log : List (Nat × DateTime)}
    (hlog : ∀ e ∈ log, e.1 < messages.length) (more : List Trace) (db : TraceDb) :
    db.writeLog (messages ++ more) log = db.writeLog messages log := by
  have hsame : (log.flatMap fun e => TraceDb.payload (messages ++ more) e.1 e.2) =
      log.flatMap fun e => TraceDb.payload messages e.1 e.2 := by
    refine List.flatMap_congr fun e he => ?_
    rw [TraceDb.payload, TraceDb.payload, List.getElem?_append_left (hlog e he)]
  rw [TraceDb.writeLog, TraceDb.writeLog, hsame]

/-- **A payload gets to the queue.** -/
theorem sound_enqueue (hs : Sound orgId usage db s) {r : Nat}
    (h : s.step orgId (.enqueue r) = some s') : Sound orgId usage db s' := by
  unfold step at h
  dsimp only at h
  split at h
  · cases h
  next t ht =>
    have hlength := length_requests ht
    cases h
    exact {
      charged := fun k f => by
        rw [hs.charged, ← hlength, List.length_append, List.length_singleton]
        push_cast
        rw [add_assoc (s.messages.length : Int), add_comm (1 : Int)]
      known := fun i => by
        rw [List.mem_append, List.mem_singleton, hs.known, List.length_append,
          List.length_singleton]
        omega
      fate := fun i => by
        have hfate := hs.fate i
        rw [List.map_append, List.count_append, List.count_append]
        simp only [List.map_cons, List.map_nil]
        omega
      settled := hs.settled
      attempts := fun i => by
        have hattempts := hs.attempts i
        rw [budget_append, budget_singleton, List.count_append, List.count_singleton, Nat.mul_add]
        by_cases hi : s.messages.length = i
        · simp only [hi, if_true, beq_self_eq_true]
          omega
        · simp only [hi, if_false, beq_iff_eq]
          omega
      visible := hs.visible
      queued := fun u hu => by
        rcases List.mem_append.mp hu with hu | hu
        · exact hs.queued u hu
        · obtain rfl := List.mem_singleton.mp hu
          exact hs.requested u (List.mem_of_getElem? ht)
      requested := fun u hu => hs.requested u (List.mem_of_mem_eraseIdx hu)
      retries := fun e he => by
        rcases List.mem_append.mp he with he | he
        · exact hs.retries e he
        · obtain rfl := List.mem_singleton.mp he
          exact Nat.zero_le _
      written := fun e he => by
        rw [List.length_append]
        exact Nat.lt_add_right _ (hs.written e he)
      tables := by
        rw [hs.tables]
        exact (writeLog_append hs.written [t] db).symm }

/-- **The queue is out of reach, and the charge is rolled back.** -/
theorem sound_enqueueFails (hs : Sound orgId usage db s) {r : Nat} {id : UUID}
    (hid : s.usage.Fresh id) (h : s.step orgId (.enqueueFails r id) = some s') :
    Sound orgId usage db s' := by
  dsimp only [step] at h
  split at h
  · cases h
  next t ht =>
    have hlength := length_requests ht
    cases h
    refine { hs with
      charged := fun k f => ?_
      visible := (visible_rollbackIncrement ..).trans hs.visible
      requested := fun u hu => hs.requested u (List.mem_of_mem_eraseIdx hu) }
    rw [UsageState.rollbackIncrement_value hid, hs.visible, hs.charged, ← hlength, Nat.cast_add,
      ← add_assoc, unitsAt_add _ _ _ ((1 : Nat) : Int)]
    exact add_sub_assoc _ _ _ |>.trans (by rw [Nat.cast_one, add_sub_cancel_right])

/-- What is taken from a place of the queue. -/
theorem taken {queue : List (Nat × Nat)} {j i retries : Nat} (hq : queue[j]? = some (i, retries)) :
    (∀ x, (queue.map Prod.fst).count x =
        [i].count x + ((queue.eraseIdx j).map Prod.fst).count x) ∧
      ∀ x, budget x queue = budget x [(i, retries)] + budget x (queue.eraseIdx j) := by
  obtain ⟨hj, he⟩ := List.getElem?_eq_some_iff.mp hq
  have hperm := List.getElem_cons_eraseIdx_perm hj
  rw [he] at hperm
  refine ⟨fun x => ?_, fun x => ?_⟩
  · rw [← (hperm.map Prod.fst).count_eq x, List.map_cons, ← List.singleton_append,
      List.count_append]
  · rw [← budget_append, List.singleton_append]
    exact (hperm.map _).sum_eq.symm

/-- The tables after one more write. -/
theorem writeLog_concat {messages : List Trace} {i : Nat} {t : Trace}
    (ht : messages[i]? = some t) (log : List (Nat × DateTime)) (now : DateTime) (db : TraceDb) :
    db.writeLog messages (log ++ [(i, now)]) = (db.writeLog messages log).persistTrace now t := by
  simp [TraceDb.writeLog, TraceDb.writeAll, TraceDb.payload, ht]

/-- A message is attempted: what it commits is logged, and the delivery goes back to the queue
with one retry more, or it is settled or lost. -/
theorem sound_taken (hs : Sound orgId usage db s) {j i retries : Nat} {t : Trace}
    (hq : s.queue[j]? = some (i, retries)) (ht : s.messages[i]? = some t) (now : DateTime)
    (committed : Bool) (back : List (Nat × Nat)) (settled lost : List Nat)
    (hfate : ∀ x, [i].count x = (back.map Prod.fst).count x + settled.count x + lost.count x)
    (hbudget : ∀ x, [i].count x + budget x back ≤ budget x [(i, retries)])
    (hretries : ∀ e ∈ back, e.2 ≤ maxRetries)
    (hsettled : ∀ x ∈ settled, x = i ∧ committed = true) :
    Sound orgId usage db { s with
      queue := s.queue.eraseIdx j ++ back
      attempts := s.attempts ++ [i]
      db := if committed then s.db.persistTrace now t else s.db
      written := if committed then s.written ++ [(i, now)] else s.written
      settled := s.settled ++ settled
      lost := s.lost ++ lost } := by
  obtain ⟨hcount, hsum⟩ := taken hq
  have hi : i < s.messages.length := (List.getElem?_eq_some_iff.mp ht).1
  exact { hs with
    fate := fun x => by
      have hbefore := hs.fate x
      have htaken := hcount x
      have hmoved := hfate x
      simp only [List.map_append, List.count_append]
      omega
    settled := fun x hx => by
      rcases List.mem_append.mp hx with hx | hx
      · obtain ⟨e, he, rfl⟩ := List.mem_map.mp (hs.settled x hx)
        refine List.mem_map_of_mem ?_
        split
        · exact List.mem_append_left _ he
        · exact he
      · obtain ⟨rfl, hcommitted⟩ := hsettled x hx
        simp [hcommitted]
    attempts := fun x => by
      have hbefore := hs.attempts x
      have htaken := hsum x
      have hmoved := hbudget x
      simp only [List.count_append, budget_append]
      omega
    retries := fun e he => by
      rcases List.mem_append.mp he with he | he
      · exact hs.retries e (List.mem_of_mem_eraseIdx he)
      · exact hretries e he
    written := fun e he => by
      dsimp only at he
      split at he
      · rcases List.mem_append.mp he with he | he
        · exact hs.written e he
        · obtain rfl := List.mem_singleton.mp he
          exact hi
      · exact hs.written e he
    tables := by
      cases committed with
      | false => exact hs.tables
      | true =>
        simp only [if_true]
        rw [writeLog_concat ht, hs.tables] }

/-- **A worker attempts a message.** -/
theorem sound_attempt (hs : Sound orgId usage db s) {j : Nat} {now : DateTime} {committed : Bool}
    {ending : IngestEnd} (h : s.step orgId (.attempt j now committed ending) = some s') :
    Sound orgId usage db s' := by
  change s.attempt j now committed ending = some s' at h
  unfold attempt at h
  split at h
  · cases h
  next i retries hq =>
    have hle : retries ≤ maxRetries := hs.retries _ (List.mem_of_getElem? hq)
    split at h
    · cases h
    next t ht =>
      obtain ⟨db', hrun⟩ :=
        TraceDb.upsertTrace_of_ownSpans (hs.queued t (List.mem_of_getElem? ht)) s.db now
      simp only [hrun, Option.isSome_some, Bool.and_true] at h
      split at h
      · cases h
      next hreturned =>
        have hone : ∀ x, 1 ≤ budget x [(i, retries)] ∨ [i].count x = 0 := by
          intro x
          rw [budget_singleton, List.count_singleton]
          by_cases hx : i = x
          · left
            rw [if_pos hx]
            omega
          · right
            simpa using hx
        -- a delivery that ends here
        have hends : ∀ x, [i].count x + budget x ([] : List (Nat × Nat)) ≤
            budget x [(i, retries)] := by
          intro x
          have hcount : [i].count x ≤ 1 := by
            rw [List.count_singleton]
            split <;> omega
          have hnil : budget x [] = 0 := rfl
          rcases hone x with hx | hx <;> omega
        have hgone := sound_taken hs hq ht now committed [] [] [i] (fun x => by simp) hends
          (fun e he => by cases he) fun x hx => by cases hx
        simp only [List.append_nil] at hgone
        cases ending with
        | returned =>
          have hcommitted : committed = true := by
            cases committed with
            | true => rfl
            | false => exact absurd ⟨rfl, rfl⟩ hreturned
          cases h
          have hdone := sound_taken hs hq ht now committed [] [i] [] (fun x => by simp) hends
            (fun e he => by cases he) fun x hx => ⟨List.mem_singleton.mp hx, hcommitted⟩
          simpa only [List.append_nil] using hdone
        | raised =>
          dsimp only at h
          split at h
          next hlt =>
            cases h
            have hback := sound_taken hs hq ht now committed [(i, retries + 1)] [] []
              (fun x => by simp) (fun x => by
                rw [budget_singleton, budget_singleton, List.count_singleton]
                by_cases hx : i = x
                · simp only [hx, if_true, beq_self_eq_true]
                  omega
                · simp [hx]) (fun e he => by
                obtain rfl := List.mem_singleton.mp he
                exact hlt) fun x hx => by cases hx
            simpa only [List.append_nil] using hback
          · cases h
            exact hgone
        | timedOut =>
          cases h
          exact hgone
        | killed =>
          cases h
          exact hgone

/-- **The broker delivers a message once more.** -/
theorem sound_redeliver (hs : Sound orgId usage db s) {j : Nat}
    (h : s.step orgId (.redeliver j) = some s') : Sound orgId usage db s' := by
  dsimp only [step] at h
  split at h
  · cases h
  next e he =>
    have hmem : e ∈ s.queue := List.mem_of_getElem? he
    have hdelivered : e.1 ∈ s.delivered := by
      rw [← List.count_pos_iff, hs.fate]
      have hqueued : 0 < (s.queue.map Prod.fst).count e.1 :=
        List.count_pos_iff.mpr (List.mem_map_of_mem hmem)
      omega
    cases h
    exact { hs with
      known := fun i => by
        rw [List.mem_append, List.mem_singleton, hs.known]
        refine ⟨fun h => h.elim id fun h => ?_, Or.inl⟩
        exact h ▸ (hs.known e.1).mp hdelivered
      fate := fun i => by
        have hfate := hs.fate i
        simp only [List.map_append, List.map_cons, List.map_nil, List.count_append]
        omega
      attempts := fun i => by
        have hattempts := hs.attempts i
        obtain ⟨k, n⟩ := e
        rw [budget_append, budget_singleton, List.count_append, List.count_singleton, Nat.mul_add]
        by_cases hi : k = i
        · simp only [hi, if_true, beq_self_eq_true]
          omega
        · simp only [hi, if_false, beq_iff_eq]
          omega
      retries := fun x hx => by
        rcases List.mem_append.mp hx with hx | hx
        · exact hs.retries x hx
        · obtain rfl := List.mem_singleton.mp hx
          exact hs.retries _ hmem }

theorem sound_step (hs : Sound orgId usage db s) (h₀ : ∀ k f, 0 ≤ usage.redis.value k f)
    {a : IngestAct} (hids : NewIds s a) (h : s.step orgId a = some s') :
    Sound orgId usage db s' := by
  cases a with
  | charge body projectId id => exact sound_charge hs h₀ hids h
  | enqueue r => exact sound_enqueue hs h
  | enqueueFails r id => exact sound_enqueueFails hs hids h
  | attempt j now committed ending => exact sound_attempt hs h
  | redeliver j => exact sound_redeliver hs h

/-- The start and the end of a trace, as an agent sends them. -/
def sampleBody (status : TraceStatus) : Trace :=
  { TraceDb.sampleTrace (.str "question") with status := status }

/-- The start is committed by a worker that raises, the end is persisted, and then the start is
attempted again. -/
def startLast : List IngestAct :=
  [.enqueue 0, .enqueue 0, .attempt 0 5 true .raised, .attempt 0 6 true .returned,
    .attempt 0 7 true .returned]

end IngestRun
end PandaProbe
