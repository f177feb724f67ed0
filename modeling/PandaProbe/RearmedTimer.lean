import Mathlib.Data.List.Nodup
import Mathlib.Order.Basic

/-! # A timer that is set again whenever it fires

A timer stands at an instant.  When it fires, at that instant or later, it is set to the next
instant after the time of the firing.  So whatever separates a time from the next instant after it
separates two firings (`Rearmed.pairwise`), and no instant is fired for twice
(`Rearmed.nodup_due`), however late the firings are and however many instants they skip.
-/

/-- A firing: when it was, and the instant it was due at. -/
structure Firing (T : Type*) where
  time : T
  due : T
  deriving DecidableEq, Repr

namespace Firing
variable {T : Type*} {next : T → Option T} {armed : Option T} {fs : List (Firing T)}

/-- The timer stands at `armed` after the firings, the last one first: each set it to the next
instant. -/
def Rearmed (next : T → Option T) : Option T → List (Firing T) → Prop
  | _, [] => True
  | armed, f :: rest => armed = next f.time ∧ Rearmed next (some f.due) rest

/-- No firing is early. -/
def Late [LE T] (fs : List (Firing T)) : Prop := ∀ f ∈ fs, f.due ≤ f.time

/-- Each firing but the first is due at a next instant. -/
theorem Rearmed.due_next (h : Rearmed next armed fs) :
    fs.Pairwise fun later _ => ∃ t, next t = some later.due := by
  induction fs generalizing armed with
  | nil => exact .nil
  | cons f rest ih =>
    refine List.pairwise_cons.mpr ⟨fun e he => ?_, ih h.2⟩
    cases rest with
    | nil => cases he
    | cons g rest => exact ⟨g.time, h.2.1.symm⟩

variable [Preorder T] {R : T → T → Prop}

/-- Every firing is related to the instant at which the timer stands. -/
theorem Rearmed.rel_armed (hnext : ∀ t u, next t = some u → R t u) (hle : ∀ t u, R t u → t ≤ u)
    (hup : ∀ t u v, R t u → u ≤ v → R t v) (hlate : Late fs) (h : Rearmed next armed fs) {u : T}
    (hu : armed = some u) : ∀ e ∈ fs, R e.time u := by
  induction fs generalizing armed u with
  | nil => exact fun e he => absurd he List.not_mem_nil
  | cons f rest ih =>
    obtain ⟨hf, hrest⟩ := List.forall_mem_cons.mp hlate
    have hfu : R f.time u := hnext _ _ (h.1.symm.trans hu)
    refine List.forall_mem_cons.mpr ⟨hfu, fun e he => ?_⟩
    have hef : R e.time f.due := ih hrest h.2 rfl e he
    exact hup _ _ _ hef (hf.trans (hle _ _ hfu))

/-- **What separates a time from the next instant separates two firings.** -/
theorem Rearmed.pairwise (hnext : ∀ t u, next t = some u → R t u) (hle : ∀ t u, R t u → t ≤ u)
    (hup : ∀ t u v, R t u → u ≤ v → R t v) (hlate : Late fs) (h : Rearmed next armed fs) :
    fs.Pairwise fun later earlier => R earlier.time later.due := by
  induction fs generalizing armed with
  | nil => exact .nil
  | cons f rest ih =>
    obtain ⟨-, hrest⟩ := List.forall_mem_cons.mp hlate
    exact List.pairwise_cons.mpr ⟨h.2.rel_armed hnext hle hup hrest rfl, ih hrest h.2⟩

/-- **No instant is fired for twice.** -/
theorem Rearmed.nodup_due (hnext : ∀ t u, next t = some u → t < u) (hlate : Late fs)
    (h : Rearmed next armed fs) : (fs.map Firing.due).Nodup := by
  have hpair := h.pairwise hnext (fun _ _ => le_of_lt) (fun _ _ _ => lt_of_lt_of_le) hlate
  refine List.pairwise_map.mpr (hpair.imp_of_mem fun _ hearlier hlt => ?_)
  exact (lt_of_le_of_lt (hlate _ hearlier) hlt).ne'

end Firing
