import Mathlib.Data.List.Basic
import Mathlib.Order.Basic

/-! # Questions to a service that may fail

A dialogue asks questions one after another, each depending on the answers so far, and comes to a
result.  The service it is held with has a state of its own and may fail on any request; so a
question is put again and again by a schedule, until a request is answered or the schedule ends.
Some questions are refused before they are put.

`Transcript d log r` says what a list of requests looks like that comes from holding `d`: to every
question fewer failures than the schedule has entries and then a valid answer, from which the
dialogue goes on, or a failure for each entry, or a refusal.  `converse_transcript`: whatever the
service does as long as its answers are valid, what is requested is such a list.  What follows from
it follows for every service: the number of requests (`Transcript.length_le`), what the result
satisfies (`Transcript.result`) and what a failure has behind it (`Transcript.failed`).
-/

/-- A question to which an answer is given, or a result. -/
inductive Dialogue (Q : Type) (A : Q → Type) (R : Type)
  | done (r : R)
  | ask (q : Q) (next : A q → Dialogue Q A R)

namespace Dialogue
variable {Q : Type} {A : Q → Type} {R M E S : Type}

/-- At most `n` questions, whatever the answers. -/
def AtMost : Nat → Dialogue Q A R → Prop
  | _, done _ => True
  | 0, ask _ _ => False
  | n + 1, ask _ next => ∀ a, (next a).AtMost n

/-- Every result satisfies `P` if the answers are valid. -/
def Ensures (V : (q : Q) → A q → Prop) (P : R → Prop) : Dialogue Q A R → Prop
  | done r => P r
  | ask q next => ∀ a, V q a → (next a).Ensures V P

/-- The result for a list of answers, each to the question of its place. -/
def play [DecidableEq Q] : Dialogue Q A R → List ((q : Q) × A q) → Option R
  | done r, [] => some r
  | done _, _ :: _ => none
  | ask _ _, [] => none
  | ask q next, ⟨q', a⟩ :: answers => if h : q' = q then (next (h ▸ a)).play answers else none

/-- The first answer is to the first question. -/
theorem play_ask [DecidableEq Q] {q q' : Q} {next : A q → Dialogue Q A R} {a : A q'}
    {answers : List ((q : Q) × A q)} {r : R}
    (h : (ask q next).play (⟨q', a⟩ :: answers) = some r) :
    ∃ hq : q' = q, (next (hq ▸ a)).play answers = some r := by
  rw [play] at h
  split at h
  next hq => exact ⟨hq, h⟩
  · cases h

theorem play_done [DecidableEq Q] {r x : R} {answers : List ((q : Q) × A q)}
    (h : (done r : Dialogue Q A R).play answers = some x) : r = x := by
  cases answers with
  | nil => exact Option.some.inj h
  | cons a answers => cases h

/-- A request: the question, the way it was put, and what came back. -/
structure Request (Q : Type) (A : Q → Type) (M E : Type) where
  question : Q
  mode : M
  reply : Except E (A question)

/-- The request was not answered. -/
def Request.Fails (x : Request Q A M E) : Prop := ∃ e, x.reply = .error e

/-- The answers among the requests, in their order. -/
def answersOf (log : List (Request Q A M E)) : List ((q : Q) × A q) :=
  log.filterMap fun x =>
    match x.reply with
    | .ok a => some ⟨x.question, a⟩
    | .error _ => none

/-- Put a question by a schedule of ways until it is answered; `last` is the error so far. -/
def putAll (service : (q : Q) → M → S → S × Except E (A q)) (q : Q) :
    List M → S → E → S × List (Request Q A M E) × Except E (A q)
  | [], st, last => (st, [], .error last)
  | m :: ms, st, _ =>
    match service q m st with
    | (st, .ok a) => (st, [⟨q, m, .ok a⟩], .ok a)
    | (st, .error e) =>
      let (st, log, r) := putAll service q ms st e
      (st, ⟨q, m, .error e⟩ :: log, r)

/-- Put a question that is not refused.  `giveUp` words the error of one that is not answered. -/
def put (service : (q : Q) → M → S → S × Except E (A q)) (schedule : List M) (never : E)
    (refuses : Q → Option E) (giveUp : E → E) (q : Q) (st : S) :
    S × List (Request Q A M E) × Except E (A q) :=
  match refuses q with
  | some e => (st, [], .error e)
  | none =>
    match putAll service q schedule st never with
    | (st, log, .error e) => (st, log, .error (giveUp e))
    | (st, log, .ok a) => (st, log, .ok a)

/-- Hold a dialogue with what puts a question. -/
def converse (put : (q : Q) → S → S × List (Request Q A M E) × Except E (A q)) :
    Dialogue Q A R → S → S × List (Request Q A M E) × Except E R
  | done r, st => (st, [], .ok r)
  | ask q next, st =>
    match put q st with
    | (st, log, .error e) => (st, log, .error e)
    | (st, log, .ok a) =>
      let (st, rest, r) := converse put (next a) st
      (st, log ++ rest, r)

/-- **What is requested when a dialogue is held**, for a schedule of `n` entries. -/
inductive Transcript (n : Nat) (refuses : Q → Option E) (giveUp : E → E)
    (V : (q : Q) → A q → Prop) : Dialogue Q A R → List (Request Q A M E) → Except E R → Prop
  | done (r : R) : Transcript n refuses giveUp V (done r) [] (.ok r)
  | refused {q : Q} {next : A q → Dialogue Q A R} {e : E} : refuses q = some e →
      Transcript n refuses giveUp V (ask q next) [] (.error e)
  | answered {q : Q} {next : A q → Dialogue Q A R} {failures log : List (Request Q A M E)}
      {m : M} {a : A q} {r : Except E R} : failures.length < n →
      (∀ x ∈ failures, x.question = q ∧ x.Fails) → V q a →
      Transcript n refuses giveUp V (next a) log r →
      Transcript n refuses giveUp V (ask q next) (failures ++ ⟨q, m, .ok a⟩ :: log) r
  | givenUp {q : Q} {next : A q → Dialogue Q A R} {failures : List (Request Q A M E)} {e : E} :
      failures.length = n → (∀ x ∈ failures, x.question = q ∧ x.Fails) →
      Transcript n refuses giveUp V (ask q next) failures (.error (giveUp e))

variable {service : (q : Q) → M → S → S × Except E (A q)} {never : E}
  {refuses : Q → Option E} {giveUp : E → E} {V : (q : Q) → A q → Prop}

/-- What a schedule leads to. -/
theorem putAll_spec (hvalid : ∀ q m st a, (service q m st).2 = .ok a → V q a) (q : Q)
    (schedule : List M) (st : S) (last : E) :
    (∃ failures m a, (putAll service q schedule st last).2 = (failures ++ [⟨q, m, .ok a⟩], .ok a) ∧
        failures.length < schedule.length ∧ (∀ x ∈ failures, x.question = q ∧ x.Fails) ∧ V q a) ∨
      ∃ failures e, (putAll service q schedule st last).2 = (failures, .error e) ∧
        failures.length = schedule.length ∧ ∀ x ∈ failures, x.question = q ∧ x.Fails := by
  induction schedule generalizing st last with
  | nil => exact .inr ⟨[], last, rfl, rfl, fun x hx => by cases hx⟩
  | cons m ms ih =>
    rw [putAll]
    have hanswer := hvalid q m st
    generalize service q m st = answer at hanswer
    obtain ⟨st', a | a⟩ := answer
    · -- one more failure in front of what the rest of the schedule leads to
      have hcons : ∀ {failures : List (Request Q A M E)},
          (∀ x ∈ failures, x.question = q ∧ x.Fails) →
          ∀ x ∈ (⟨q, m, .error a⟩ : Request Q A M E) :: failures, x.question = q ∧ x.Fails := by
        intro failures h x hx
        rcases List.mem_cons.mp hx with rfl | hx
        · exact ⟨rfl, a, rfl⟩
        · exact h x hx
      rcases ih st' a with ⟨failures, m', b, hrest, hlength, hfails, hb⟩ |
        ⟨failures, e, hrest, hlength, hfails⟩
      · refine .inl ⟨⟨q, m, .error a⟩ :: failures, m', b, ?_, ?_, hcons hfails, hb⟩
        · simp [hrest]
        · simpa using hlength
      · refine .inr ⟨⟨q, m, .error a⟩ :: failures, e, ?_, ?_, hcons hfails⟩
        · simp [hrest]
        · simpa using hlength
    · exact .inl ⟨[], m, a, rfl, by simp, (fun x hx => by cases hx), hanswer a rfl⟩

/-- **Whatever a service with valid answers does, what is requested is a transcript.** -/
theorem converse_transcript (hvalid : ∀ q m st a, (service q m st).2 = .ok a → V q a)
    (schedule : List M) (never : E) (refuses : Q → Option E) (giveUp : E → E)
    (d : Dialogue Q A R) (st : S) :
    Transcript schedule.length refuses giveUp V d
      (converse (put service schedule never refuses giveUp) d st).2.1
      (converse (put service schedule never refuses giveUp) d st).2.2 := by
  induction d generalizing st with
  | done r => exact .done r
  | ask q next ih =>
    rw [converse, put]
    cases hq : refuses q with
    | some e => exact .refused hq
    | none =>
      dsimp only
      have hput := putAll_spec hvalid q schedule st never
      generalize putAll service q schedule st never = p at hput
      obtain ⟨st', log, answer⟩ := p
      rcases hput with ⟨failures, m, a, hrest, hlength, hfails, ha⟩ |
        ⟨failures, e, hrest, hlength, hfails⟩
      · cases hrest
        have hgoes := ih a st'
        simpa using Transcript.answered hlength hfails ha hgoes
      · cases hrest
        exact .givenUp hlength hfails

section
variable {n k : Nat} {d : Dialogue Q A R} {log : List (Request Q A M E)} {r : Except E R}

/-- **The requests are at most the schedule's entries for each question.** -/
theorem Transcript.length_le (h : Transcript n refuses giveUp V d log r) (hd : d.AtMost k) :
    log.length ≤ n * k := by
  induction h generalizing k with
  | done r => exact Nat.zero_le _
  | refused => exact Nat.zero_le _
  | answered hlength _ _ _ ih =>
    cases k with
    | zero => exact hd.elim
    | succ k =>
      have hrest := ih (hd _)
      rw [List.length_append, List.length_cons, Nat.mul_succ]
      omega
  | givenUp hlength _ =>
    cases k with
    | zero => exact hd.elim
    | succ k =>
      rw [hlength, Nat.mul_succ]
      exact Nat.le_add_left n (n * k)

/-- **What every result satisfies.** -/
theorem Transcript.result {P : R → Prop} {x : R} (h : Transcript n refuses giveUp V d log (.ok x))
    (hd : d.Ensures V P) : P x := by
  generalize hr : Except.ok x = r at h
  induction h with
  | done r =>
    cases hr
    exact hd
  | refused => cases hr
  | answered _ _ ha _ ih => exact ih (hd _ ha) hr
  | givenUp => cases hr

theorem answersOf_failures {failures : List (Request Q A M E)} (h : ∀ x ∈ failures, x.Fails) :
    answersOf failures = [] := by
  refine List.filterMap_eq_nil_iff.mpr fun x hx => ?_
  obtain ⟨e, he⟩ := h x hx
  rw [he]

/-- **Failures leave no trace**: the result is what the answers alone lead to. -/
theorem Transcript.play_eq [DecidableEq Q] {x : R}
    (h : Transcript n refuses giveUp V d log (.ok x)) : d.play (answersOf log) = some x := by
  generalize hr : Except.ok x = r at h
  induction h with
  | done r =>
    cases hr
    rfl
  | refused => cases hr
  | @answered q next failures log m a r _ hfails _ _ ih =>
    have hnone := answersOf_failures fun x hx => (hfails x hx).2
    have hanswers : answersOf (failures ++ ⟨q, m, .ok a⟩ :: log) = ⟨q, a⟩ :: answersOf log := by
      rw [answersOf, List.filterMap_append, ← answersOf, hnone]
      rfl
    rw [hanswers, play, dif_pos rfl]
    exact ih hr
  | givenUp => cases hr

/-- **A failure has a whole schedule behind it**, unless a question was refused: the last requests
are failures, all to one question, as many as the schedule has entries. -/
theorem Transcript.failed {e : E} (h : Transcript n refuses giveUp V d log (.error e)) :
    (∃ q, refuses q = some e) ∨
      ∃ before failures q e', log = before ++ failures ∧ failures.length = n ∧
        (∀ x ∈ failures, x.question = q ∧ x.Fails) ∧ e = giveUp e' := by
  generalize hr : Except.error e = r at h
  induction h with
  | done r => cases hr
  | @refused q next e' hq =>
    cases hr
    exact .inl ⟨q, hq⟩
  | @answered q next failures log m a r _ _ _ _ ih =>
    rcases ih hr with hrefused | ⟨before, last, q', e', rfl, hlength, hlast, rfl⟩
    · exact .inl hrefused
    · exact .inr ⟨failures ++ ⟨q, m, .ok a⟩ :: before, last, q', e', by simp, hlength, hlast, rfl⟩
  | @givenUp q next failures e' hlength hfails =>
    cases hr
    exact .inr ⟨[], failures, q, e', rfl, hlength, hfails, rfl⟩

end
end Dialogue
