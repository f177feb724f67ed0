import Mathlib

/-! # Continuous percentiles

`percentileCont p` of a list of numbers: the list is sorted, the place `p * (n - 1)` lies on one
of its entries or between two, and the value is read off in proportion.  It exists where there is
a number (`percentileCont_eq_none`), keeps its place when all numbers are given in another unit
(`percentileCont_scale`), rises with `p` (`percentileCont_mono`) and is one that more than a share
`p` of the other numbers do not exceed and more than a share `1 - p` do not fall below
(`percentileCont_rank`).

The sorted list is read as a rising function of all places, `entry`, the last one repeated; in
between it is interpolated.
-/
namespace Percentiles
variable {K : Type*} [Field K] [LinearOrder K] [IsStrictOrderedRing K] [FloorSemiring K]

/-- `percentile_cont(p) WITHIN GROUP (ORDER BY value)`. -/
def percentileCont (p : K) (values : List K) : Option K :=
  let sorted := values.insertionSort (· ≤ ·)
  let place := p * ((sorted.length : K) - 1)
  match sorted[⌊place⌋₊]?, sorted[⌈place⌉₊]? with
  | some first, some second => some (first + (place - (⌊place⌋₊ : K)) * (second - first))
  | _, _ => none

/-- The entry of a place, the last one for every place behind it. -/
def entry (values : List K) (i : Nat) : K :=
  ((values.insertionSort (· ≤ ·))[min i (values.length - 1)]?).getD 0

/-- What stands at a place between the entries. -/
def interpolate (x : Nat → K) (t : K) : K := x ⌊t⌋₊ + (t - (⌊t⌋₊ : K)) * (x (⌊t⌋₊ + 1) - x ⌊t⌋₊)

variable {x : Nat → K} {values : List K} {p q s t : K}

theorem le_interpolate (hx : Monotone x) (ht : 0 ≤ t) : x ⌊t⌋₊ ≤ interpolate x t := by
  have hstep : x ⌊t⌋₊ ≤ x (⌊t⌋₊ + 1) := hx (Nat.le_succ _)
  have hfloor : (⌊t⌋₊ : K) ≤ t := Nat.floor_le ht
  exact le_add_of_nonneg_right (mul_nonneg (sub_nonneg.mpr hfloor) (sub_nonneg.mpr hstep))

theorem interpolate_le (hx : Monotone x) (t : K) : interpolate x t ≤ x (⌊t⌋₊ + 1) := by
  have hstep : 0 ≤ x (⌊t⌋₊ + 1) - x ⌊t⌋₊ := sub_nonneg.mpr (hx (Nat.le_succ _))
  have hpart : t - (⌊t⌋₊ : K) ≤ 1 := by
    have := (Nat.lt_floor_add_one t).le
    linarith
  calc x ⌊t⌋₊ + (t - (⌊t⌋₊ : K)) * (x (⌊t⌋₊ + 1) - x ⌊t⌋₊)
      ≤ x ⌊t⌋₊ + 1 * (x (⌊t⌋₊ + 1) - x ⌊t⌋₊) := by gcongr
    _ = x (⌊t⌋₊ + 1) := by ring

omit [IsStrictOrderedRing K] in
/-- On a place nothing is added; behind it the next place is the one above. -/
theorem interpolate_eq (x : Nat → K) (ht : 0 ≤ t) :
    interpolate x t = x ⌊t⌋₊ + (t - (⌊t⌋₊ : K)) * (x ⌈t⌉₊ - x ⌊t⌋₊) := by
  rcases (Nat.floor_le ht).eq_or_lt with heq | hlt
  · rw [interpolate, heq, sub_self, zero_mul, zero_mul]
  · have hceil : ⌈t⌉₊ = ⌊t⌋₊ + 1 := (Nat.ceil_eq_iff (Nat.succ_ne_zero _)).mpr
      ⟨by simpa using hlt, by simpa using (Nat.lt_floor_add_one t).le⟩
    rw [interpolate, hceil]

theorem interpolate_le_ceil (hx : Monotone x) (ht : 0 ≤ t) : interpolate x t ≤ x ⌈t⌉₊ := by
  have hstep : 0 ≤ x ⌈t⌉₊ - x ⌊t⌋₊ := sub_nonneg.mpr (hx (Nat.floor_le_ceil t))
  have hpart : t - (⌊t⌋₊ : K) ≤ 1 := by
    have := (Nat.lt_floor_add_one t).le
    linarith
  calc interpolate x t = x ⌊t⌋₊ + (t - (⌊t⌋₊ : K)) * (x ⌈t⌉₊ - x ⌊t⌋₊) := interpolate_eq x ht
    _ ≤ x ⌊t⌋₊ + 1 * (x ⌈t⌉₊ - x ⌊t⌋₊) := by gcongr
    _ = x ⌈t⌉₊ := by ring

/-- A rising function stays rising between its places. -/
theorem interpolate_mono (hx : Monotone x) (hs : 0 ≤ s) (hst : s ≤ t) :
    interpolate x s ≤ interpolate x t := by
  rcases (Nat.floor_mono hst).eq_or_lt with heq | hlt
  · -- both are in one interval
    have hstep : 0 ≤ x (⌊t⌋₊ + 1) - x ⌊t⌋₊ := sub_nonneg.mpr (hx (Nat.le_succ _))
    rw [interpolate, interpolate, heq]
    gcongr
  · calc interpolate x s ≤ x (⌊s⌋₊ + 1) := interpolate_le hx s
      _ ≤ x ⌊t⌋₊ := hx hlt
      _ ≤ interpolate x t := le_interpolate hx (hs.trans hst)

omit [Field K] [IsStrictOrderedRing K] [FloorSemiring K] in
theorem length_sorted : (values.insertionSort (· ≤ ·)).length = values.length :=
  List.length_insertionSort (· ≤ ·) values

omit [IsStrictOrderedRing K] [FloorSemiring K] in
theorem getElem?_sorted {i : Nat} (hi : i < values.length) :
    (values.insertionSort (· ≤ ·))[i]? = some (entry values i) := by
  have hmin : min i (values.length - 1) = i := by omega
  have hlt : i < (values.insertionSort (· ≤ ·)).length := by rwa [length_sorted]
  rw [entry, hmin, List.getElem?_eq_getElem hlt, Option.getD_some]

omit [IsStrictOrderedRing K] [FloorSemiring K] in
theorem entry_mono (values : List K) : Monotone (entry values) := by
  intro i j hij
  by_cases hnil : values = []
  · subst hnil
    exact le_refl _
  · have hpos : 0 < values.length := List.length_pos_of_ne_nil hnil
    have hi : min i (values.length - 1) < (values.insertionSort (· ≤ ·)).length := by
      rw [length_sorted]
      omega
    have hj : min j (values.length - 1) < (values.insertionSort (· ≤ ·)).length := by
      rw [length_sorted]
      omega
    rw [entry, entry, List.getElem?_eq_getElem hi, List.getElem?_eq_getElem hj]
    exact (List.pairwise_insertionSort (· ≤ ·) values).rel_get_of_le (a := ⟨_, hi⟩) (b := ⟨_, hj⟩)
      (by simpa using by omega)

/-- The last place of a list. -/
def lastPlace (values : List K) : K := (values.length : K) - 1

theorem place_bounds (hnil : values ≠ []) (hp : 0 ≤ p) (hp' : p ≤ 1) :
    0 ≤ p * lastPlace values ∧ ⌊p * lastPlace values⌋₊ < values.length ∧
      ⌈p * lastPlace values⌉₊ < values.length := by
  have hpos : 0 < values.length := List.length_pos_of_ne_nil hnil
  have hone : (1 : K) ≤ values.length := by exact_mod_cast hpos
  have hlast : 0 ≤ lastPlace values := sub_nonneg.mpr hone
  have hle : p * lastPlace values ≤ ((values.length - 1 : Nat) : K) := by
    rw [Nat.cast_sub hpos, Nat.cast_one]
    exact mul_le_of_le_one_left hlast hp'
  have hceil : ⌈p * lastPlace values⌉₊ ≤ values.length - 1 := Nat.ceil_le.mpr hle
  have hfloor := Nat.floor_le_ceil (p * lastPlace values)
  refine ⟨mul_nonneg hp hlast, ?_, ?_⟩ <;> omega

/-- **A percentile is the interpolated value of its place.** -/
theorem percentileCont_eq (hnil : values ≠ []) (hp : 0 ≤ p) (hp' : p ≤ 1) :
    percentileCont p values = some (interpolate (entry values) (p * lastPlace values)) := by
  obtain ⟨hplace, hfirst, hsecond⟩ := place_bounds hnil hp hp'
  unfold lastPlace at hplace hfirst hsecond ⊢
  simp only [percentileCont, length_sorted, getElem?_sorted hfirst, getElem?_sorted hsecond,
    interpolate_eq _ hplace]

/-- There is none exactly for no numbers. -/
theorem percentileCont_eq_none (hp : 0 ≤ p) (hp' : p ≤ 1) :
    percentileCont p values = none ↔ values = [] := by
  constructor
  · intro h
    by_contra hnil
    rw [percentileCont_eq hnil hp hp'] at h
    cases h
  · rintro rfl
    rfl

/-- **Numbers in another unit** have their percentiles in it. -/
theorem percentileCont_scale {c : K} (hc : 0 < c) (p : K) (values : List K) :
    percentileCont p (values.map (· * c)) = (percentileCont p values).map (· * c) := by
  have hsorted : (values.map (· * c)).insertionSort (· ≤ ·) =
      (values.insertionSort (· ≤ ·)).map (· * c) :=
    (List.map_insertionSort (· ≤ ·) (· ≤ ·) _ values
      fun a _ b _ => (mul_le_mul_iff_left₀ hc).symm).symm
  unfold percentileCont
  simp only [hsorted, List.length_map, List.getElem?_map]
  generalize values.insertionSort (· ≤ ·) = sorted
  cases sorted[⌊p * ((sorted.length : K) - 1)⌋₊]? with
  | none => rfl
  | some first =>
    cases sorted[⌈p * ((sorted.length : K) - 1)⌉₊]? with
    | none => rfl
    | some second =>
      simp only [Option.map_some]
      congr 1
      ring

/-- **A higher percentile is not smaller.** -/
theorem percentileCont_mono (hp : 0 ≤ p) (hpq : p ≤ q) (hq : q ≤ 1) {a b : K}
    (ha : percentileCont p values = some a) (hb : percentileCont q values = some b) : a ≤ b := by
  have hnil : values ≠ [] := by
    rintro rfl
    cases ha
  rw [percentileCont_eq hnil hp (hpq.trans hq)] at ha
  rw [percentileCont_eq hnil (hp.trans hpq) hq] at hb
  cases ha
  cases hb
  have hlast : 0 ≤ lastPlace values := by
    have hone : (1 : K) ≤ values.length := by exact_mod_cast List.length_pos_of_ne_nil hnil
    exact sub_nonneg.mpr hone
  exact interpolate_mono (entry_mono values) (mul_nonneg hp hlast)
    (mul_le_mul_of_nonneg_right hpq hlast)

omit [IsStrictOrderedRing K] [FloorSemiring K] in
/-- The entries up to a place are not above its entry. -/
theorem lt_countP_le {i : Nat} (hi : i < values.length) :
    i < values.countP (· ≤ entry values i) := by
  have hall : ∀ a ∈ (values.insertionSort (· ≤ ·)).take (i + 1), a ≤ entry values i := by
    intro a ha
    obtain ⟨j, hj, rfl⟩ := List.mem_take_iff_getElem.mp ha
    rw [length_sorted] at hj
    have hentry : (values.insertionSort (· ≤ ·))[j]? = some (entry values j) :=
      getElem?_sorted (by omega)
    rw [(List.getElem?_eq_some_iff.mp hentry).2]
    exact entry_mono values (by omega)
  calc i < ((values.insertionSort (· ≤ ·)).take (i + 1)).length := by
        rw [List.length_take, length_sorted]
        omega
    _ = ((values.insertionSort (· ≤ ·)).take (i + 1)).countP (· ≤ entry values i) :=
        (List.countP_eq_length.mpr fun a ha => decide_eq_true (hall a ha)).symm
    _ ≤ (values.insertionSort (· ≤ ·)).countP (· ≤ entry values i) :=
        (List.take_sublist _ _).countP_le
    _ = values.countP (· ≤ entry values i) := (List.perm_insertionSort _ _).countP_eq _

omit [IsStrictOrderedRing K] [FloorSemiring K] in
/-- The entries from a place on are not below its entry. -/
theorem le_countP_ge (values : List K) (i : Nat) :
    values.length - i ≤ values.countP (entry values i ≤ ·) := by
  have hall : ∀ a ∈ (values.insertionSort (· ≤ ·)).drop i, entry values i ≤ a := by
    intro a ha
    obtain ⟨j, hj, rfl⟩ := List.mem_drop_iff_getElem.mp ha
    rw [length_sorted] at hj
    have hentry : (values.insertionSort (· ≤ ·))[i + j]? = some (entry values (i + j)) :=
      getElem?_sorted (by omega)
    rw [(List.getElem?_eq_some_iff.mp hentry).2]
    exact entry_mono values (by omega)
  calc values.length - i = ((values.insertionSort (· ≤ ·)).drop i).length := by
        rw [List.length_drop, length_sorted]
    _ = ((values.insertionSort (· ≤ ·)).drop i).countP (entry values i ≤ ·) :=
        (List.countP_eq_length.mpr fun a ha => decide_eq_true (hall a ha)).symm
    _ ≤ (values.insertionSort (· ≤ ·)).countP (entry values i ≤ ·) :=
        (List.drop_sublist _ _).countP_le
    _ = values.countP (entry values i ≤ ·) := (List.perm_insertionSort _ _).countP_eq _

/-- **What a percentile says**: with the last of the numbers left out, more than a share `p` does
not exceed it, and more than a share `1 - p` does not fall below it. -/
theorem percentileCont_rank (hp : 0 ≤ p) (hp' : p ≤ 1) {a : K}
    (ha : percentileCont p values = some a) :
    p * lastPlace values < (values.countP (· ≤ a) : K) ∧
      (1 - p) * lastPlace values < (values.countP (a ≤ ·) : K) := by
  have hnil : values ≠ [] := by
    rintro rfl
    cases ha
  obtain ⟨hplace, hfirst, hsecond⟩ := place_bounds hnil hp hp'
  rw [percentileCont_eq hnil hp hp'] at ha
  cases ha
  constructor
  · have hbelow : values.countP (· ≤ entry values ⌊p * lastPlace values⌋₊) ≤
        values.countP (· ≤ interpolate (entry values) (p * lastPlace values)) :=
      List.countP_mono_left fun b _ hb => decide_eq_true
        ((of_decide_eq_true hb).trans (le_interpolate (entry_mono values) hplace))
    have hcount : ⌊p * lastPlace values⌋₊ + 1 ≤
        values.countP (· ≤ interpolate (entry values) (p * lastPlace values)) :=
      (lt_countP_le hfirst).trans_le hbelow
    calc p * lastPlace values < (⌊p * lastPlace values⌋₊ : K) + 1 := Nat.lt_floor_add_one _
      _ ≤ _ := by exact_mod_cast hcount
  · have habove : values.countP (entry values ⌈p * lastPlace values⌉₊ ≤ ·) ≤
        values.countP (interpolate (entry values) (p * lastPlace values) ≤ ·) :=
      List.countP_mono_left fun b _ hb => decide_eq_true
        ((interpolate_le_ceil (entry_mono values) hplace).trans (of_decide_eq_true hb))
    have hcount : values.length - ⌈p * lastPlace values⌉₊ ≤
        values.countP (interpolate (entry values) (p * lastPlace values) ≤ ·) :=
      (le_countP_ge values _).trans habove
    have hceil : (⌈p * lastPlace values⌉₊ : K) < p * lastPlace values + 1 := Nat.ceil_lt_add_one hplace
    calc (1 - p) * lastPlace values = (values.length : K) - (p * lastPlace values + 1) := by
          rw [lastPlace]
          ring
      _ < (values.length : K) - (⌈p * lastPlace values⌉₊ : K) := by linarith
      _ = ((values.length - ⌈p * lastPlace values⌉₊ : Nat) : K) := (Nat.cast_sub hsecond.le).symm
      _ ≤ _ := by exact_mod_cast hcount

/-- A percentile is between two of the numbers. -/
theorem percentileCont_between (hp : 0 ≤ p) (hp' : p ≤ 1) {a : K}
    (ha : percentileCont p values = some a) : (∃ v ∈ values, v ≤ a) ∧ ∃ v ∈ values, a ≤ v := by
  have hnil : values ≠ [] := by
    rintro rfl
    cases ha
  have hlast : 0 ≤ lastPlace values := by
    have hone : (1 : K) ≤ values.length := by exact_mod_cast List.length_pos_of_ne_nil hnil
    rw [lastPlace]
    linarith
  obtain ⟨hbelow, habove⟩ := percentileCont_rank hp hp' ha
  have hlow : 0 < values.countP (· ≤ a) := by
    exact_mod_cast (mul_nonneg hp hlast).trans_lt hbelow
  have hhigh : 0 < values.countP (a ≤ ·) := by
    exact_mod_cast (mul_nonneg (sub_nonneg.mpr hp') hlast).trans_lt habove
  obtain ⟨v, hv, hle⟩ := List.countP_pos_iff.mp hlow
  obtain ⟨w, hw, hge⟩ := List.countP_pos_iff.mp hhigh
  exact ⟨⟨v, hv, of_decide_eq_true hle⟩, ⟨w, hw, of_decide_eq_true hge⟩⟩

end Percentiles
