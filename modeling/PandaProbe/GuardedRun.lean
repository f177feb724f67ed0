import Mathlib.Data.Option.Basic
import Mathlib.Logic.Basic

/-! # Runs of a guarded machine

A machine is a partial step function on a state, `none` where an action is not
enabled.  `Reach step ok s₀` are the states of the runs from `s₀` all of whose
steps meet the condition `ok`, a condition on the state before the step and the
action taken.  With `Always` for `ok` they are all the runs.

The rules: an invariant is proved on the start and on one step (`Reach.invariant`),
and a concrete list of actions that runs through gives a reachable state
(`reach_of_run`).
-/
namespace GuardedRun
variable {S A : Type*}

/-- The states of the runs from `s₀` whose steps all meet `ok`. -/
inductive Reach (step : S → A → Option S) (ok : S → A → Prop) (s₀ : S) : S → Prop
  | initial : Reach step ok s₀ s₀
  | step {s s' : S} {a : A} : Reach step ok s₀ s → ok s a → step s a = some s' →
      Reach step ok s₀ s'

/-- No condition on the steps. -/
def Always (_ : S) (_ : A) : Prop := True

variable {step : S → A → Option S} {ok : S → A → Prop} {s₀ s : S}

/-- **The invariant rule.** -/
theorem Reach.invariant {I : S → Prop} (h : Reach step ok s₀ s) (h₀ : I s₀)
    (hstep : ∀ s a s', I s → ok s a → step s a = some s' → I s') : I s := by
  induction h with
  | initial => exact h₀
  | step _ hok hs ih => exact hstep _ _ _ ih hok hs

/-- Run a list of actions. -/
def run (step : S → A → Option S) : S → List A → Option S
  | s, [] => some s
  | s, a :: as => (step s a).bind (fun s' => run step s' as)

/-- A list of actions that all meet the condition, whatever the state, takes a reachable
state to a reachable state. -/
theorem Reach.run_from {s' : S} {as : List A} (h : Reach step ok s₀ s)
    (hok : ∀ a ∈ as, ∀ s, ok s a) (hrun : run step s as = some s') : Reach step ok s₀ s' := by
  induction as generalizing s with
  | nil => cases hrun; exact h
  | cons a as ih =>
    obtain ⟨t, ht, hrest⟩ := Option.bind_eq_some_iff.mp hrun
    refine ih (.step h (hok a (List.mem_cons_self ..) s) ht) ?_ hrest
    exact fun b hb => hok b (List.mem_cons_of_mem _ hb)

/-- The step, where a test allows it. -/
def checked (step : S → A → Option S) (test : S → A → Bool) (s : S) (a : A) : Option S :=
  if test s a then step s a else none

/-- A list of actions that runs through, with a test of the condition before each, takes a
reachable state to a reachable state. -/
theorem Reach.run_checked {s' : S} {test : S → A → Bool} {as : List A} (h : Reach step ok s₀ s)
    (htest : ∀ s a, test s a = true → ok s a) (hrun : run (checked step test) s as = some s') :
    Reach step ok s₀ s' := by
  induction as generalizing s with
  | nil => cases hrun; exact h
  | cons a as ih =>
    obtain ⟨t, ht, hrest⟩ := Option.bind_eq_some_iff.mp hrun
    unfold checked at ht
    split at ht
    next hok => exact ih (.step h (htest s a hok) ht) hrest
    · cases ht

/-- **A list of actions that runs through ends in a reachable state.** -/
theorem reach_of_run {as : List A} (hrun : run step s₀ as = some s) :
    Reach step Always s₀ s :=
  Reach.run_from .initial (fun _ _ _ => trivial) hrun

end GuardedRun
