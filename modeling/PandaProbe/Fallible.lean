import Mathlib.Data.List.Forall2
import Mathlib.Data.Option.Basic

/-! # Computations that may fail

Taking computations in `Except` and `Option` apart: the steps of one that succeeds (`bind_ok`),
and a loop over a list that ends at the first failure (`mapM`).
-/
namespace Fallible

/-- **The steps of a computation that succeeds.** -/
theorem bind_ok {ε α β : Type} {x : Except ε α} {f : α → Except ε β} {r : β}
    (h : (x >>= f) = .ok r) : ∃ a, x = .ok a ∧ f a = .ok r := by
  cases x with
  | error e => cases h
  | ok a => exact ⟨a, rfl, h⟩

section MapM
variable {α β : Type} {f : α → Option β}

theorem mapM_eq_some_iff {l : List α} {r : List β} :
    l.mapM f = some r ↔ List.Forall₂ (fun a b => f a = some b) l r := by
  induction l generalizing r with
  | nil =>
    rw [List.mapM_nil, List.forall₂_nil_left_iff]
    exact ⟨fun h => (Option.some.inj h).symm, fun h => congrArg some h.symm⟩
  | cons a l ih =>
    rw [List.mapM_cons, List.forall₂_cons_left_iff]
    constructor
    · intro h
      obtain ⟨b, hb, h⟩ := Option.bind_eq_some_iff.mp h
      obtain ⟨bs, hbs, h⟩ := Option.bind_eq_some_iff.mp h
      exact ⟨b, bs, hb, ih.mp hbs, (Option.some.inj h).symm⟩
    · rintro ⟨b, bs, hb, hbs, rfl⟩
      exact Option.bind_eq_some_iff.mpr ⟨b, hb, Option.bind_eq_some_iff.mpr ⟨bs, ih.mpr hbs, rfl⟩⟩

/-- What a loop has computed, element by element. -/
theorem mem_mapM {l : List α} {r : List β} (h : l.mapM f = some r) {b : β} :
    b ∈ r ↔ ∃ a ∈ l, f a = some b := by
  have hall := mapM_eq_some_iff.mp h
  clear h
  induction hall with
  | nil => simp
  | @cons a c l r hac _ ih =>
    simp only [List.mem_cons, ih, exists_eq_or_imp, hac, Option.some_inj]
    exact or_congr_left eq_comm

/-- What the results of a list say of the values they come from. -/
theorem map_mapM {γ : Type} {l : List α} {r : List β} (h : l.mapM f = some r) {g : β → γ}
    {g' : α → γ} (heq : ∀ a b, f a = some b → g b = g' a) : r.map g = l.map g' := by
  have hall := mapM_eq_some_iff.mp h
  clear h
  induction hall with
  | nil => rfl
  | cons hab _ ih => rw [List.map_cons, List.map_cons, heq _ _ hab, ih]

/-- Looking up a key in what was computed for a list of keys. -/
theorem lookup_mapM [DecidableEq α] {l : List α} {r : List (α × β)}
    (h : l.mapM (fun a => (f a).map fun b => (a, b)) = some r) (i : α) :
    r.lookup i = if i ∈ l then f i else none := by
  have hall := mapM_eq_some_iff.mp h
  clear h
  induction hall with
  | nil => rfl
  | @cons a p l r hab _ ih =>
    obtain ⟨b, hb, rfl⟩ := Option.map_eq_some_iff.mp hab
    by_cases hi : i = a
    · subst hi
      simp [hb]
    · have hne : (i == a) = false := by simpa using hi
      simp [List.lookup_cons, hne, ih, hi]

/-- The loop succeeds if and only if it does on each element. -/
theorem isSome_mapM_iff {l : List α} : (l.mapM f).isSome ↔ ∀ a ∈ l, (f a).isSome := by
  induction l with
  | nil => simp
  | cons a l ih =>
    rw [List.forall_mem_cons, ← ih, List.mapM_cons]
    cases hf : f a with
    | none => simp
    | some b =>
      cases hl : l.mapM f with
      | none => simp
      | some bs => simp

/-- A loop over the elements that pass a test. -/
theorem mapM_filter {p : α → Prop} [DecidablePred p] {l : List α} (h : ∀ a ∈ l, (f a).isSome) :
    (l.filter fun a => ¬ p a).mapM f = some (l.filterMap fun a => if p a then none else f a) := by
  induction l with
  | nil => rfl
  | cons a l ih =>
    have hrest := ih fun b hb => h b (List.mem_cons_of_mem a hb)
    by_cases ha : p a
    · simpa [ha] using hrest
    · obtain ⟨b, hb⟩ := Option.isSome_iff_exists.mp (h a List.mem_cons_self)
      simp only [decide_not] at hrest
      simp [ha, hb, hrest]

end MapM

end Fallible
