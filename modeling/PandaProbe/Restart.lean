import Mathlib.Logic.Basic
import Mathlib.Data.Option.Basic

/-! # Programs that are restarted

A program works on a database through reads, writes and commits.  It sees its own writes; an
attempt that stops in the middle, whether it raises, is killed or loses its connection,
leaves what it had last committed.

A program that starts by putting its database into a fixed shape can be restarted.  Let
`base` be that first write, and let every write of the program be undone by it
(`Keeps base`).  Then what an attempt leaves when it stops, wherever it stops, has the same
base as before (`base_stopped`), and so any number of stopped attempts does not change what
a last one that completes leaves (`complete_after`).

What is committed can be looked at while an attempt is under way: `Shows P` says that it meets `P`
at every moment, and reads off the program like its result does.

Programs that run side by side (`Worker`) keep whatever each of their writes keeps.
-/
namespace Restart
universe u
variable {D : Type u}

/-- A program.  What follows a read depends on the database it sees. -/
inductive Prog (D : Type u)
  | done
  | raise
  | read (next : D → Prog D)
  | write (f : D → D) (next : Prog D)
  | commit (next : Prog D)

namespace Prog

/-- The database after an attempt that stops after `n` statements: what was last committed.
`c` is committed and `w` is what the program sees. -/
def stopped : Nat → Prog D → D → D → D
  | 0, _, c, _ => c
  | _ + 1, .done, c, _ => c
  | _ + 1, .raise, c, _ => c
  | n + 1, .read next, c, w => stopped n (next w) c w
  | n + 1, .write f next, c, w => stopped n next c (f w)
  | n + 1, .commit next, _, w => stopped n next w w

/-- The database after an attempt that is not interrupted, `none` if it raises. -/
def complete : Prog D → D → D → Option D
  | .done, c, _ => some c
  | .raise, _, _ => none
  | .read next, c, w => complete (next w) c w
  | .write f next, c, w => complete next c (f w)
  | .commit next, _, w => complete next w w

@[simp] theorem complete_read (next : D → Prog D) (c w : D) :
    (Prog.read next).complete c w = (next w).complete c w := rfl

@[simp] theorem complete_write (f : D → D) (next : Prog D) (c w : D) :
    (Prog.write f next).complete c w = next.complete c (f w) := rfl

@[simp] theorem complete_commit (next : Prog D) (c w : D) :
    (Prog.commit next).complete c w = next.complete w w := rfl

/-- Whenever the attempt is looked at, what is committed meets `P`. -/
def Shows (P : D → Prop) (p : Prog D) (c w : D) : Prop := ∀ n, P (stopped n p c w)

section Shows
variable {P : D → Prop} {c w : D}

theorem Shows.committed {p : Prog D} (h : Shows P p c w) : P c := h 0

@[simp] theorem shows_done : Shows P .done c w ↔ P c := by
  refine ⟨fun h => h 0, fun h n => ?_⟩
  cases n <;> exact h

@[simp] theorem shows_raise : Shows P .raise c w ↔ P c := by
  refine ⟨fun h => h 0, fun h n => ?_⟩
  cases n <;> exact h

@[simp] theorem shows_read {next : D → Prog D} :
    Shows P (.read next) c w ↔ Shows P (next w) c w := by
  refine ⟨fun h n => h (n + 1), fun h n => ?_⟩
  cases n with
  | zero => exact h 0
  | succ n => exact h n

@[simp] theorem shows_write {f : D → D} {next : Prog D} :
    Shows P (.write f next) c w ↔ Shows P next c (f w) := by
  refine ⟨fun h n => h (n + 1), fun h n => ?_⟩
  cases n with
  | zero => exact h 0
  | succ n => exact h n

@[simp] theorem shows_commit {next : Prog D} :
    Shows P (.commit next) c w ↔ P c ∧ Shows P next w w := by
  refine ⟨fun h => ⟨h 0, fun n => h (n + 1)⟩, fun h n => ?_⟩
  cases n with
  | zero => exact h.1
  | succ n => exact h.2 n

/-- What an attempt leaves that completes is shown in the end. -/
theorem Shows.complete {p : Prog D} {fin : D} (h : Shows P p c w) (hp : p.complete c w = some fin) :
    P fin := by
  induction p generalizing c w with
  | done =>
    cases hp
    exact h.committed
  | raise => cases hp
  | read next ih => exact ih w (shows_read.mp h) hp
  | write f next ih => exact ih (shows_write.mp h) hp
  | commit next ih => exact ih (shows_commit.mp h).2 hp

end Shows

/-- Every write of the program is undone by `base`. -/
inductive Keeps (base : D → D) : Prog D → Prop
  | done : Keeps base .done
  | raise : Keeps base .raise
  | read {next : D → Prog D} : (∀ d, Keeps base (next d)) → Keeps base (.read next)
  | write {f : D → D} {next : Prog D} : (∀ d, base (f d) = base d) → Keeps base next →
      Keeps base (.write f next)
  | commit {next : Prog D} : Keeps base next → Keeps base (.commit next)

/-- **A stopped attempt leaves the base.** -/
theorem base_stopped {base : D → D} {p : Prog D} (hp : Keeps base p) (n : Nat) {c w b : D}
    (hc : base c = b) (hw : base w = b) : base (stopped n p c w) = b := by
  induction hp generalizing n c w with
  | done => cases n <;> exact hc
  | raise => cases n <;> exact hc
  | read _ ih =>
    cases n with
    | zero => exact hc
    | succ n => exact ih w n hc hw
  | write hf _ ih =>
    cases n with
    | zero => exact hc
    | succ n => exact ih n hc ((hf w).trans hw)
  | commit _ ih =>
    cases n with
    | zero => exact hc
    | succ n => exact ih n hw hw

end Prog

/-- An attempt that stops after `at` statements, and what is noted about it afterwards. -/
structure Attempt (D : Type u) where
  prog : Prog D
  stop : Nat
  note : D → D

/-- The database after stopped attempts, one after another. -/
def after (d : D) : List (Attempt D) → D
  | [] => d
  | a :: rest => after (a.note (a.prog.stopped a.stop d d)) rest

/-- **Stopped attempts leave the base.** -/
theorem base_after {base : D → D} {attempts : List (Attempt D)}
    (h : ∀ a ∈ attempts, Prog.Keeps base a.prog ∧ ∀ d, base (a.note d) = base d) (d : D) :
    base (after d attempts) = base d := by
  induction attempts generalizing d with
  | nil => rfl
  | cons a rest ih =>
    obtain ⟨⟨hkeeps, hnote⟩, hrest⟩ := List.forall_mem_cons.mp h
    calc base (after d (a :: rest))
        = base (a.note (a.prog.stopped a.stop d d)) := ih hrest _
      _ = base (a.prog.stopped a.stop d d) := hnote _
      _ = base d := Prog.base_stopped hkeeps a.stop rfl rfl

/-- **Restarting is harmless.**  If the last attempt begins by writing the base, it leaves
what it would have left without the stopped attempts. -/
theorem complete_after {base : D → D} {attempts : List (Attempt D)} {p rest : Prog D}
    (h : ∀ a ∈ attempts, Prog.Keeps base a.prog ∧ ∀ d, base (a.note d) = base d)
    (hp : ∀ d, p.complete d d = rest.complete (base d) (base d)) (d : D) :
    p.complete (after d attempts) (after d attempts) = p.complete d d := by
  rw [hp, hp, base_after h]

/-! ## Programs side by side

Several programs work on one database.  What a program writes is seen by itself, and by the
others once it commits.
-/

/-- What is left of a program, and its writes since its last commit. -/
structure Worker (D : Type u) where
  prog : Prog D
  pending : List (D → D)

namespace Worker

/-- A program that starts. -/
def start (p : Prog D) : Worker D := ⟨p, []⟩

/-- The database with the worker's own writes. -/
def view (w : Worker D) (d : D) : D := w.pending.foldl (fun d f => f d) d

/-- One statement: the database afterwards, and the worker if it goes on. -/
def step (w : Worker D) (d : D) : D × Option (Worker D) :=
  match w.prog with
  | .done => (d, none)
  | .raise => (d, none)
  | .read next => (d, some { w with prog := next (w.view d) })
  | .write f next => (d, some ⟨next, w.pending ++ [f]⟩)
  | .commit next => (w.view d, some ⟨next, []⟩)

end Worker

/-- Every write of the program keeps `I`, if what it reads meets `I`. -/
inductive Prog.Preserves (I : D → Prop) : Prog D → Prop
  | done : Preserves I .done
  | raise : Preserves I .raise
  | read {next : D → Prog D} : (∀ d, I d → Preserves I (next d)) → Preserves I (.read next)
  | write {f : D → D} {next : Prog D} : (∀ d, I d → I (f d)) → Preserves I next →
      Preserves I (.write f next)
  | commit {next : Prog D} : Preserves I next → Preserves I (.commit next)

namespace Worker
variable {I : D → Prop} {w : Worker D} {d : D}

/-- Neither what is left nor what is pending breaks `I`. -/
def Preserves (I : D → Prop) (w : Worker D) : Prop :=
  w.prog.Preserves I ∧ ∀ f ∈ w.pending, ∀ d, I d → I (f d)

theorem view_preserves (h : w.Preserves I) (hd : I d) : I (w.view d) := by
  obtain ⟨p, pending⟩ := w
  obtain ⟨-, hpending⟩ := h
  simp only [view] at hpending ⊢
  induction pending generalizing d with
  | nil => exact hd
  | cons f rest ih =>
    obtain ⟨hf, hrest⟩ := List.forall_mem_cons.mp hpending
    exact ih (hf d hd) hrest

/-- **One statement keeps the invariant**, in the database and of the worker. -/
theorem step_preserves (h : w.Preserves I) (hd : I d) :
    I (w.step d).1 ∧ ∀ w', (w.step d).2 = some w' → w'.Preserves I := by
  have hview := view_preserves h hd
  obtain ⟨p, pending⟩ := w
  obtain ⟨hp, hpending⟩ := h
  cases hp with
  | done => exact ⟨hd, fun _ h => by cases h⟩
  | raise => exact ⟨hd, fun _ h => by cases h⟩
  | read hnext =>
    refine ⟨hd, fun w' h => ?_⟩
    cases h
    exact ⟨hnext _ hview, hpending⟩
  | write hf hnext =>
    refine ⟨hd, fun w' h => ?_⟩
    cases h
    refine ⟨hnext, fun g hg => ?_⟩
    rcases List.mem_append.mp hg with hg | hg
    · exact hpending g hg
    · rw [List.mem_singleton.mp hg]
      exact hf
  | commit hnext =>
    refine ⟨hview, fun w' h => ?_⟩
    cases h
    exact ⟨hnext, fun g hg => by cases hg⟩

end Worker

end Restart
