import Mathlib.Data.List.Dedup

/-! # Writes that later writes absorb

An action of arguments on states, up to an equivalence of states.  If an application of `a`
makes every earlier application of `a` superfluous, whatever lies in between, then replaying a
list of arguments changes nothing: each application of the first pass is absorbed by its
counterpart in the second.  More generally only the last occurrence of each argument matters
(`Absorbs.last`).
-/
namespace Absorption
variable {R A : Type*}

/-- Up to `same`, an application of `a` absorbs an earlier one, right before it or with one
other application in between. -/
structure Absorbs (same : R → R → Prop) (act : R → A → R) : Prop where
  equiv : Equivalence same
  congr : ∀ {r r'} (a), same r r' → same (act r a) (act r' a)
  again : ∀ r a, same (act (act r a) a) (act r a)
  between : ∀ r a b, same (act (act (act r a) b) a) (act (act r b) a)

variable {same : R → R → Prop} {act : R → A → R}

theorem Absorbs.congr_foldl (h : Absorbs same act) (l : List A) {r r' : R} (hr : same r r') :
    same (l.foldl act r) (l.foldl act r') := by
  induction l generalizing r r' with
  | nil => exact hr
  | cons a l ih => exact ih (h.congr a hr)

/-- An application absorbs an earlier one across any list. -/
theorem Absorbs.across (h : Absorbs same act) (a : A) (l : List A) (r : R) :
    same (act (l.foldl act (act r a)) a) (act (l.foldl act r) a) := by
  induction l generalizing r with
  | nil => exact h.again r a
  | cons b l ih =>
    -- put one more `a` after `b`, which absorbs the first one, and take it out again
    have hin : same (act (l.foldl act (act (act (act r a) b) a)) a)
        (act (l.foldl act (act (act r a) b)) a) := ih (act (act r a) b)
    have hswap : same (act (l.foldl act (act (act (act r a) b) a)) a)
        (act (l.foldl act (act (act r b) a)) a) :=
      h.congr a (h.congr_foldl l (h.between r a b))
    exact h.equiv.trans (h.equiv.symm hin) (h.equiv.trans hswap (ih (act r b)))

/-- **A list absorbs whatever it contains.** -/
theorem Absorbs.absorbed (h : Absorbs same act) {l m : List A} (hlm : ∀ a ∈ l, a ∈ m) (r : R) :
    same (m.foldl act (l.foldl act r)) (m.foldl act r) := by
  induction l generalizing r with
  | nil => exact h.equiv.refl _
  | cons a l ih =>
    obtain ⟨ha, hl⟩ := List.forall_mem_cons.mp hlm
    refine h.equiv.trans (ih hl (act r a)) ?_
    obtain ⟨before, after, rfl⟩ := List.append_of_mem ha
    simp only [List.foldl_append, List.foldl_cons]
    exact h.congr_foldl after (h.across a before r)

/-- **Only the last occurrence of each argument matters.** -/
theorem Absorbs.last [DecidableEq A] (h : Absorbs same act) (l : List A) (r : R) :
    same (l.dedup.foldl act r) (l.foldl act r) := by
  induction l generalizing r with
  | nil => exact h.equiv.refl r
  | cons a l ih =>
    by_cases ha : a ∈ l
    · rw [List.dedup_cons_of_mem ha]
      have hfirst : same (l.foldl act (act r a)) (l.foldl act r) :=
        h.absorbed (l := [a]) (by simpa using ha) r
      exact h.equiv.trans (ih r) (h.equiv.symm hfirst)
    · rw [List.dedup_cons_of_notMem ha]
      exact ih (act r a)

/-! ## Actions made of actions -/

/-- Lists of arguments, applied one after another. -/
theorem Absorbs.lists (h : Absorbs same act) :
    Absorbs same fun (r : R) (l : List A) => l.foldl act r where
  equiv := h.equiv
  congr l hr := h.congr_foldl l hr
  again r l := h.absorbed (fun _ ha => ha) r
  between r l m := by
    have hlm := h.absorbed (l := l) (m := m ++ l) (fun a ha => List.mem_append_right m ha) r
    simpa only [List.foldl_append] using hlm

/-- Arguments that are read through a function. -/
theorem Absorbs.comap {B : Type*} (h : Absorbs same act) (f : B → A) :
    Absorbs same fun r b => act r (f b) where
  equiv := h.equiv
  congr b hr := h.congr (f b) hr
  again r b := h.again r (f b)
  between r a b := h.between r (f a) (f b)

/-- Arguments that are applied only where they mean the state. -/
theorem Absorbs.guarded (h : Absorbs same act) (p : A → Prop) [DecidablePred p] :
    Absorbs same fun r a => if p a then act r a else r where
  equiv := h.equiv
  congr a hr := by
    split
    · exact h.congr a hr
    · exact hr
  again r a := by
    split
    · exact h.again r a
    · exact h.equiv.refl r
  between r a b := by
    by_cases ha : p a
    · by_cases hb : p b
      · simpa only [if_pos ha, if_pos hb] using h.between r a b
      · simpa only [if_pos ha, if_neg hb] using h.again r a
    · simpa only [if_neg ha] using h.equiv.refl _

/-- A cell that the first argument fills and the others act on. -/
def fill (new : A → R) (act : R → A → R) (cell : Option R) (a : A) : Option R :=
  match cell with
  | none => some (new a)
  | some r => some (act r a)

/-- Two cells with the same content. -/
abbrev SameCell (same : R → R → Prop) : Option R → Option R → Prop := Option.Rel same

theorem sameCell_equivalence (h : Equivalence same) : Equivalence (SameCell same) where
  refl c := by
    cases c with
    | none => exact .none
    | some r => exact .some (h.refl r)
  symm hcd := by
    cases hcd with
    | none => exact .none
    | some hrs => exact .some (h.symm hrs)
  trans hcd hde := by
    cases hcd with
    | none => exact hde
    | some hrs =>
      cases hde with
      | some hst => exact .some (h.trans hrs hst)

/-- Cells, if what fills one is absorbed as well. -/
theorem Absorbs.cells {new : A → R} (h : Absorbs same act)
    (hagain : ∀ a, same (act (new a) a) (new a))
    (hbetween : ∀ a b, same (act (act (new a) b) a) (act (new b) a)) :
    Absorbs (SameCell same) (fill new act) where
  equiv := sameCell_equivalence h.equiv
  congr a hcd := by
    cases hcd with
    | none => exact .some (h.equiv.refl (new a))
    | some hrs => exact .some (h.congr a hrs)
  again c a := by
    cases c with
    | none => exact .some (hagain a)
    | some r => exact .some (h.again r a)
  between c a b := by
    cases c with
    | none => exact .some (hbetween a b)
    | some r => exact .some (h.between r a b)

/-- Two lists whose arguments do the same, one by one. -/
theorem Absorbs.foldl_map {B : Type*} {actB : R → B → R} (h : Absorbs same act) {f : B → A}
    (hsame : ∀ r b, same (actB r b) (act r (f b))) (l : List B) (r : R) :
    same (l.foldl actB r) ((l.map f).foldl act r) := by
  induction l generalizing r with
  | nil => exact h.equiv.refl r
  | cons b l ih => exact h.equiv.trans (ih (actB r b)) (h.congr_foldl (l.map f) (hsame r b))

/-- What no action changes is what the first argument gave. -/
theorem foldl_fill_birth {B : Type*} {new : A → R} {birth : R → B}
    (hkeep : ∀ r a, birth (act r a) = birth r) (l : List A) (cell : Option R) :
    (l.foldl (fill new act) cell).map birth =
      (cell.map birth).or (l.head?.map fun a => birth (new a)) := by
  have hsome : ∀ (l : List A) (r : R),
      (l.foldl (fill new act) (some r)).map birth = some (birth r) := by
    intro l
    induction l with
    | nil => exact fun _ => rfl
    | cons a l ih => exact fun r => (ih (act r a)).trans (congrArg some (hkeep r a))
  cases cell with
  | some r => simpa using hsome l r
  | none =>
    cases l with
    | nil => rfl
    | cons a l => exact hsome l (new a)

end Absorption
