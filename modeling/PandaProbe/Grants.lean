import Mathlib.Data.List.Basic
import Mathlib.Data.List.Induction

/-! # Grants and their ends

What is given out for a while: a log says which grants were issued and which ended, in the order
in which it happened, and `standing` works out which of them stand after it.  An end may mean
one grant or many, those issued later are not among them.

`mem_standing_iff`: a grant stands if and only if it was issued and no end after that means it.
-/
namespace Grants
variable {G : Type*}

/-- What happened to the grants: one was issued, or all that `ends` holds of ended. -/
inductive Event (G : Type*)
  | issue (g : G)
  | withdraw (ends : G → Bool)

/-- The grants after an event. -/
def apply (standing : List G) : Event G → List G
  | .issue g => standing ++ [g]
  | .withdraw ends => standing.filter fun g => !ends g

/-- The grants that stand after a log, in the order in which they were issued. -/
def standing (log : List (Event G)) : List G := log.foldl apply []

/-- None of the events ends the grant. -/
def Kept (g : G) (log : List (Event G)) : Prop := ∀ ends, .withdraw ends ∈ log → ends g = false

variable {log : List (Event G)} {g : G}

@[simp] theorem standing_nil : standing ([] : List (Event G)) = [] := rfl

@[simp] theorem standing_issue : standing (log ++ [.issue g]) = standing log ++ [g] := by
  simp [standing, apply]

@[simp] theorem standing_withdraw {ends : G → Bool} :
    standing (log ++ [.withdraw ends]) = (standing log).filter fun g => !ends g := by
  simp [standing, apply]

theorem kept_concat_issue {h : G} : Kept g (log ++ [.issue h]) ↔ Kept g log := by
  simp [Kept]

theorem kept_concat_withdraw {ends : G → Bool} :
    Kept g (log ++ [.withdraw ends]) ↔ Kept g log ∧ ends g = false := by
  simp only [Kept, List.mem_append, List.mem_singleton, Event.withdraw.injEq]
  constructor
  · exact fun h => ⟨fun p hp => h p (.inl hp), h ends (.inr rfl)⟩
  · rintro ⟨h, hends⟩ p (hp | rfl)
    · exact h p hp
    · exact hends

/-- **A grant stands if and only if it was issued and nothing has ended it since.** -/
theorem mem_standing_iff :
    g ∈ standing log ↔ ∃ before after, log = before ++ .issue g :: after ∧ Kept g after := by
  induction log using List.reverseRecOn with
  | nil => simp
  | append_singleton log e ih =>
    cases e with
    | issue h =>
      rw [standing_issue, List.mem_append, List.mem_singleton, ih]
      constructor
      · rintro (⟨before, after, rfl, hkept⟩ | rfl)
        · exact ⟨before, after ++ [.issue h], by simp, kept_concat_issue.mpr hkept⟩
        · exact ⟨log, [], rfl, fun _ hp => by cases hp⟩
      · rintro ⟨before, after, hlog, hkept⟩
        rcases List.eq_nil_or_concat after with rfl | ⟨after, e, rfl⟩
        · right
          have hlast := (List.append_inj_right' hlog rfl)
          cases hlast
          rfl
        · left
          have hsplit : log ++ [.issue h] = (before ++ .issue g :: after) ++ [e] := by
            simpa using hlog
          obtain ⟨rfl, hlast⟩ := List.append_inj' hsplit rfl
          cases hlast
          exact ⟨before, after, rfl, kept_concat_issue.mp (by simpa using hkept)⟩
    | withdraw ends =>
      rw [standing_withdraw, List.mem_filter, ih, Bool.not_eq_true']
      constructor
      · rintro ⟨⟨before, after, rfl, hkept⟩, hends⟩
        exact ⟨before, after ++ [.withdraw ends], by simp, kept_concat_withdraw.mpr ⟨hkept, hends⟩⟩
      · rintro ⟨before, after, hlog, hkept⟩
        rcases List.eq_nil_or_concat after with rfl | ⟨after, e, rfl⟩
        · have hlast := List.append_inj_right' hlog rfl
          cases hlast
        · have hsplit : log ++ [.withdraw ends] = (before ++ .issue g :: after) ++ [e] := by
            simpa using hlog
          obtain ⟨rfl, hlast⟩ := List.append_inj' hsplit rfl
          cases hlast
          obtain ⟨hkept, hends⟩ := kept_concat_withdraw.mp (by simpa using hkept)
          exact ⟨⟨before, after, rfl, hkept⟩, hends⟩

end Grants
