import Mathlib

/-! # Operations that remember their replies

A server makes a non-idempotent operation safe to repeat by remembering, under
the operation's identity, the reply of its first execution: a repeat finds the
reply and changes nothing.  Memory may be limited, so a reply can be forgotten;
the clients' side of the bargain is not to repeat an operation after that
(`Live`).

The whole content of the discipline is `run_state` and `exec_reply`: the state is
the one of executing the distinct operations once each, in the order of their
first execution, and every execution, first or not, gets the reply that
sequential execution gives.
-/
namespace Replay
variable {σ ι ρ : Type*} [DecidableEq ι]

/-- A state together with the replies remembered for operations. -/
@[ext] structure Memo (σ ι ρ : Type*) where
  state : σ
  replies : ι → Option ρ

/-- An operation is executed, or its reply is forgotten. -/
inductive Event (ι : Type*)
  | exec (i : ι)
  | expire (i : ι)
  deriving DecidableEq

/-- Execute an operation: repeat its remembered reply, else perform it and
remember the reply. -/
def Memo.exec (f : ι → σ → σ × ρ) (m : Memo σ ι ρ) (i : ι) : Memo σ ι ρ × ρ :=
  match m.replies i with
  | some r => (m, r)
  | none => (⟨(f i m.state).1, Function.update m.replies i (some (f i m.state).2)⟩, (f i m.state).2)

/-- One event. -/
def Memo.step (f : ι → σ → σ × ρ) (m : Memo σ ι ρ) : Event ι → Memo σ ι ρ
  | .exec i => (m.exec f i).1
  | .expire i => { m with replies := Function.update m.replies i none }

/-- A whole run. -/
def Memo.run (f : ι → σ → σ × ρ) (m : Memo σ ι ρ) (es : List (Event ι)) : Memo σ ι ρ :=
  es.foldl (Memo.step f) m

/-- No operation is executed after its reply was forgotten. -/
def Live (es : List (Event ι)) : Prop :=
  es.Pairwise (fun e e' => ∀ i, e = .expire i → e' ≠ .exec i)

/-- Note an execution, unless the operation has been executed before. -/
def noteFirst (l : List ι) : Event ι → List ι
  | .exec i => if i ∈ l then l else l ++ [i]
  | .expire _ => l

/-- The distinct operations of a run, in the order of their first execution. -/
def firsts (es : List (Event ι)) : List ι := es.foldl noteFirst []

/-- Execute a list of operations once each. -/
def seqState (f : ι → σ → σ × ρ) (s : σ) (l : List ι) : σ := l.foldl (fun s i => (f i s).1) s

/-- The reply of an operation in a sequential execution. -/
def seqReply (f : ι → σ → σ × ρ) (s : σ) (l : List ι) (i : ι) : ρ :=
  (f i (seqState f s (l.take (l.idxOf i)))).2

/-! ## Sequential executions -/

section Sequential
variable (f : ι → σ → σ × ρ) (s : σ)

omit [DecidableEq ι] in
@[simp] theorem seqState_nil : seqState f s [] = s := rfl

omit [DecidableEq ι] in
theorem seqState_concat (l : List ι) (i : ι) :
    seqState f s (l ++ [i]) = (f i (seqState f s l)).1 := by
  simp [seqState, List.foldl_append]

/-- Executing more operations afterwards does not change a reply. -/
theorem seqReply_append {l : List ι} (l' : List ι) {i : ι} (hi : i ∈ l) :
    seqReply f s (l ++ l') i = seqReply f s l i := by
  unfold seqReply
  rw [List.idxOf_append_of_mem hi,
    List.take_append_of_le_length (List.idxOf_lt_length_of_mem hi).le]

/-- The reply of an operation executed last. -/
theorem seqReply_concat_self {l : List ι} {i : ι} (hi : i ∉ l) :
    seqReply f s (l ++ [i]) i = (f i (seqState f s l)).2 := by
  unfold seqReply
  rw [List.idxOf_append_of_notMem hi]
  simp

end Sequential

/-! ## First executions -/

theorem firsts_nil : firsts ([] : List (Event ι)) = [] := rfl

theorem firsts_concat_exec (es : List (Event ι)) (i : ι) :
    firsts (es ++ [.exec i]) = if i ∈ firsts es then firsts es else firsts es ++ [i] := by
  rw [firsts, List.foldl_append]
  rfl

theorem firsts_concat_expire (es : List (Event ι)) (i : ι) :
    firsts (es ++ [.expire i]) = firsts es := by
  rw [firsts, List.foldl_append]
  rfl

theorem mem_firsts (es : List (Event ι)) (i : ι) : i ∈ firsts es ↔ Event.exec i ∈ es := by
  induction es using List.reverseRecOn with
  | nil => simp [firsts_nil]
  | append_singleton es e ih =>
    cases e with
    | exec j =>
      rw [firsts_concat_exec]
      split
      · rename_i hj
        rw [ih, List.mem_append, List.mem_singleton]
        refine ⟨Or.inl, fun h => h.elim id (fun he => ?_)⟩
        rw [Event.exec.injEq] at he
        exact ih.mp (he ▸ hj)
      · simp [ih]
    | expire j => rw [firsts_concat_expire, ih]; simp

/-- A longer run performs its first executions after those of the shorter one. -/
theorem firsts_append (es es' : List (Event ι)) : ∃ l, firsts (es ++ es') = firsts es ++ l := by
  induction es' using List.reverseRecOn with
  | nil => exact ⟨[], by simp⟩
  | append_singleton es' e ih =>
    obtain ⟨l, hl⟩ := ih
    rw [← List.append_assoc]
    cases e with
    | exec i =>
      rw [firsts_concat_exec, hl]
      split
      · exact ⟨l, rfl⟩
      · exact ⟨l ++ [i], by rw [List.append_assoc]⟩
    | expire i => exact ⟨l, by rw [firsts_concat_expire, hl]⟩

omit [DecidableEq ι] in
theorem Live.left {es es' : List (Event ι)} (h : Live (es ++ es')) : Live es :=
  (List.pairwise_append.mp h).1

omit [DecidableEq ι] in
/-- In a live run, an operation about to be executed has not been forgotten. -/
theorem Live.not_expired {es : List (Event ι)} {i : ι} (h : Live (es ++ [.exec i])) :
    Event.expire i ∉ es := by
  intro hm
  exact (List.pairwise_append.mp h).2.2 _ hm _ (List.mem_singleton.mpr rfl) i rfl rfl

/-! ## The discipline -/

/-- What the memory knows after a run: nothing of operations never executed, and
the sequential reply of every operation executed and not forgotten. -/
structure Remembers (f : ι → σ → σ × ρ) (s : σ) (es : List (Event ι)) (m : Memo σ ι ρ) :
    Prop where
  state : m.state = seqState f s (firsts es)
  fresh : ∀ i, i ∉ firsts es → m.replies i = none
  known : ∀ i, i ∈ firsts es → Event.expire i ∉ es →
    m.replies i = some (seqReply f s (firsts es) i)

section Steps
variable {f : ι → σ → σ × ρ} {s : σ} {es : List (Event ι)} {m : Memo σ ι ρ} {i : ι}

/-- Repeating an operation whose reply is remembered does nothing. -/
theorem Remembers.repeated (h : Remembers f s es m) (hi : i ∈ firsts es)
    (hexp : Event.expire i ∉ es) : Remembers f s (es ++ [.exec i]) (m.step f (.exec i)) := by
  have hstep : m.step f (.exec i) = m := by
    simp [Memo.step, Memo.exec, h.known i hi hexp]
  have hfirsts : firsts (es ++ [.exec i]) = firsts es := by
    rw [firsts_concat_exec, if_pos hi]
  rw [hstep]
  refine ⟨hfirsts ▸ h.state, hfirsts ▸ h.fresh, fun j hj hjexp => ?_⟩
  rw [hfirsts] at hj ⊢
  exact h.known j hj (fun hm => hjexp (List.mem_append_left _ hm))

/-- The first execution of an operation performs it and remembers the reply. -/
theorem Remembers.first (h : Remembers f s es m) (hi : i ∉ firsts es) :
    Remembers f s (es ++ [.exec i]) (m.step f (.exec i)) := by
  have hstep : m.step f (.exec i) =
      ⟨(f i m.state).1, Function.update m.replies i (some (f i m.state).2)⟩ := by
    simp [Memo.step, Memo.exec, h.fresh i hi]
  have hfirsts : firsts (es ++ [.exec i]) = firsts es ++ [i] := by
    rw [firsts_concat_exec, if_neg hi]
  rw [hstep]
  refine ⟨?_, fun j hj => ?_, fun j hj hjexp => ?_⟩
  · rw [hfirsts, seqState_concat, ← h.state]
  · rw [hfirsts, List.mem_append, List.mem_singleton, not_or] at hj
    show Function.update m.replies i _ j = none
    rw [Function.update_of_ne hj.2]
    exact h.fresh j hj.1
  · rw [hfirsts] at hj ⊢
    show Function.update m.replies i _ j = _
    by_cases hji : j = i
    · subst hji
      rw [Function.update_self, seqReply_concat_self f s hi, ← h.state]
    · have hjf : j ∈ firsts es := (List.mem_append.mp hj).resolve_right
        (fun hm => hji (List.mem_singleton.mp hm))
      rw [Function.update_of_ne hji, seqReply_append f s [i] hjf]
      exact h.known j hjf (fun hm => hjexp (List.mem_append_left _ hm))

/-- Forgetting a reply changes only what is known of that operation. -/
theorem Remembers.expired (h : Remembers f s es m) (i : ι) :
    Remembers f s (es ++ [.expire i]) (m.step f (.expire i)) := by
  have hfirsts := firsts_concat_expire es i
  refine ⟨hfirsts ▸ h.state, fun j hj => ?_, fun j hj hjexp => ?_⟩
  · rw [hfirsts] at hj
    show Function.update m.replies i none j = none
    by_cases hji : j = i
    · rw [hji, Function.update_self]
    · rw [Function.update_of_ne hji, h.fresh j hj]
  · rw [hfirsts] at hj ⊢
    have hji : j ≠ i := by
      rintro rfl
      exact hjexp (List.mem_append_right _ (List.mem_singleton.mpr rfl))
    show Function.update m.replies i none j = _
    rw [Function.update_of_ne hji]
    exact h.known j hj (fun hm => hjexp (List.mem_append_left _ hm))

end Steps

theorem remembers_run (f : ι → σ → σ × ρ) (s : σ) {es : List (Event ι)} (hlive : Live es) :
    Remembers f s es (Memo.run f ⟨s, fun _ => none⟩ es) := by
  induction es using List.reverseRecOn with
  | nil => exact ⟨rfl, fun _ _ => rfl, fun _ hi => by cases hi⟩
  | append_singleton es e ih =>
    have h := ih hlive.left
    rw [Memo.run, List.foldl_append]
    cases e with
    | exec i =>
      by_cases hi : i ∈ firsts es
      · exact h.repeated hi hlive.not_expired
      · exact h.first hi
    | expire i => exact h.expired i

/-- **Every execution in a live run**, first or repeated, gets the sequential reply. -/
theorem exec_reply (f : ι → σ → σ × ρ) (s : σ) {es : List (Event ι)} {i : ι}
    (hlive : Live (es ++ [.exec i])) :
    ((Memo.run f ⟨s, fun _ => none⟩ es).exec f i).2 =
      seqReply f s (firsts (es ++ [.exec i])) i := by
  have h := remembers_run f s hlive.left
  rw [firsts_concat_exec]
  unfold Memo.exec
  by_cases hi : i ∈ firsts es
  · rw [h.known i hi hlive.not_expired, if_pos hi]
  · rw [h.fresh i hi, if_neg hi, seqReply_concat_self f s hi, ← h.state]

end Replay
