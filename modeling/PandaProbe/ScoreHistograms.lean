import PandaProbe.Fallible
import PandaProbe.Paging
import PandaProbe.ScoreValues
import PandaProbe.SessionMetrics

/-! # The histograms of a metric's scores

`get_score_distribution` and `get_session_score_distribution` cast the stored values of a
metric to doubles, let Postgres count them by `width_bucket`, and give each bucket its bounds
by arithmetic of their own.

A histogram of values in the unit interval is faithful if and only if every value is there, is
a number to Postgres too, and is below 1 (`histograms_faithful_iff`): a value of 1 is in bucket
`n + 1`, and a value that is missing makes the bucket `None`, with which nothing can be
computed.  Stored values are in the unit interval in every run; whether one is missing, and
whether it is 1, the writers leave open.

Doubles are not in the source.  A double stands for a rational, and every result is the double
nearest to it; all that is used is how near.
-/
namespace PandaProbe

/-- What is taken from outside: the rational a double stands for, the double nearest to a
rational, and `CAST(text AS FLOAT)`, `none` where Postgres raises. -/
structure Doubles (F : Type) where
  toRat : F → ℚ
  nearest : ℚ → ℚ
  cast : String → Option F

/-- What is assumed of it: a result is as near as a double below 128 can be; the unit interval
is what it says; and what is a number to Python and to Postgres is the same number. -/
structure Doubles.Lawful {F : Type} (d : Doubles F) (env : EvalEnv F) : Prop where
  near : ∀ x, 0 ≤ x → x ≤ 128 → |d.nearest x - x| ≤ 1 / 2 ^ 46
  inUnit : ∀ x, env.inUnit x = true → 0 ≤ d.toRat x ∧ d.toRat x ≤ 1
  cast_eq : ∀ t x y, env.float t = some x → env.inUnit x = true → d.cast t = some y → y = x

/-- An item of a distribution. -/
structure ScoreDistributionItem where
  bucket : Nat
  bucketMin : ℚ
  bucketMax : ℚ
  count : Nat
  deriving DecidableEq, Repr

namespace Doubles
open SessionMetrics (roundHalfEven)
variable {F : Type} (d : Doubles F)

/-- `round(x, 4)`. -/
def round4 (x : ℚ) : ℚ := d.nearest (roundHalfEven (x * 10000) / 10000)

/-- `width_bucket(x, 0.0, 1.0, n)`. -/
def widthBucket (x : ℚ) (n : Nat) : Nat :=
  if x < 0 then 0
  else if 1 ≤ x then n + 1
  else min ⌊d.nearest (n * x)⌋₊ (n - 1) + 1

/-- `1.0 / buckets`. -/
def step (n : Nat) : ℚ := d.nearest (1 / n)

/-- `round(max(0.0, (bucket - 1) * step), 4)`. -/
def bucketMin (bucket n : Nat) : ℚ :=
  d.round4 (max 0 (d.nearest (((bucket : ℚ) - 1) * d.step n)))

/-- `round(min(1.0, bucket * step), 4)`. -/
def bucketMax (bucket n : Nat) : ℚ := d.round4 (min 1 (d.nearest (bucket * d.step n)))

/-- The bucket column of a row: `NULL` for a value that is missing. -/
def bucketCol (n : Nat) : Option String → Option (Option Nat)
  | none => some none
  | some t => (d.cast t).map fun x => some (d.widthBucket (d.toRat x) n)

/-- One item for each bucket that has rows, in order; a bucket `NULL` is a `None` that cannot
be computed with. -/
def items (n : Nat) (buckets : List (Option Nat)) : Option (List ScoreDistributionItem) :=
  ((Paging.Comparison.ofLinearOrder Nat).missingLargest.reference buckets.dedup).mapM fun bucket =>
    bucket.map fun b => ⟨b, d.bucketMin b n, d.bucketMax b n, buckets.count (some b)⟩

/-- The histogram of stored values, `none` when it raises. -/
def histogram (values : List (Option String)) (n : Nat) : Option (List ScoreDistributionItem) :=
  (values.mapM (d.bucketCol n)).bind (d.items n)

end Doubles

/-- What a distribution is asked for. -/
structure DistributionQuery where
  projectId : UUID
  metricName : String
  dateFrom : Option DateTime
  dateTo : Option DateTime

/-- The `WHERE` of both distributions. -/
def DistributionQuery.counts (q : DistributionQuery) (projectId : UUID) (name : String)
    (dataType : ScoreDataType) (status : ScoreStatus) (createdAt : DateTime) : Bool :=
  projectId = q.projectId && name = q.metricName && dataType = .numeric && status = .success &&
  q.dateFrom.all (· ≤ createdAt) && q.dateTo.all (createdAt < ·)

namespace EvalDb
variable {F : Type} (db : EvalDb F) (d : Doubles F) (q : DistributionQuery)

/-- The trace scores a distribution counts. -/
def countedScores : List TraceScore :=
  db.scores.filter fun r => q.counts r.projectId r.name r.dataType r.status r.createdAt

/-- The session scores a distribution counts. -/
def countedSessionScores : List SessionScore :=
  db.sessionScores.filter fun r => q.counts r.projectId r.name r.dataType r.status r.createdAt

/-- `get_score_distribution`. -/
def getScoreDistribution (n : Nat) : Option (List ScoreDistributionItem) :=
  d.histogram ((db.countedScores q).map TraceScore.value) n

/-- `get_session_score_distribution`. -/
def getSessionScoreDistribution (n : Nat) : Option (List ScoreDistributionItem) :=
  d.histogram ((db.countedSessionScores q).map SessionScore.value) n

end EvalDb

namespace Doubles
open SessionMetrics
variable {F : Type} (d : Doubles F)

/-! ## The property and the condition -/

/-- Half a unit of the fourth decimal, and the errors of a few operations on doubles. -/
def tolerance : ℚ := 1 / 20000 + 1 / 2 ^ 39

/-- **A faithful histogram** of `values`: every bucket is one of `1` to `n`, every value is
inside the bounds shown for its bucket, and the counts add up to the number of values. -/
structure Faithful (values : List (Option String)) (n : Nat) (items : List ScoreDistributionItem) :
    Prop where
  bucket : ∀ item ∈ items, 1 ≤ item.bucket ∧ item.bucket ≤ n
  bounds : ∀ t x, some t ∈ values → d.cast t = some x → ∃ item ∈ items,
    item.bucket = d.widthBucket (d.toRat x) n ∧
    item.bucketMin - tolerance ≤ d.toRat x ∧ d.toRat x ≤ item.bucketMax + tolerance
  total : (items.map ScoreDistributionItem.count).sum = values.length

/-- **The condition**: no value is missing, none is a number to Python only, and none is 1. -/
def Countable (values : List (Option String)) : Prop :=
  ∀ v ∈ values, ∃ t x, v = some t ∧ d.cast t = some x ∧ d.toRat x < 1

variable {d} {env : EvalEnv F} {values : List (Option String)} {n : Nat}

/-! ## The arithmetic of the bounds -/

theorem roundHalfEven_nonneg {x : ℚ} (hx : 0 ≤ x) : 0 ≤ roundHalfEven x := by
  have hzero := roundHalfEven_intCast (K := ℚ) 0
  have hmono := roundHalfEven_mono hx
  rwa [← Int.cast_zero, hzero] at hmono

theorem round4_near (h : d.Lawful env) {x : ℚ} (hx : 0 ≤ x) (hx' : x ≤ 2) :
    |d.round4 x - x| ≤ 1 / 20000 + 1 / 2 ^ 46 := by
  have hround := abs_le.mp (roundHalfEven_near (x * 10000))
  have hnonneg : (0 : ℚ) ≤ roundHalfEven (x * 10000) := by
    exact_mod_cast roundHalfEven_nonneg (by linarith)
  have hnear := abs_le.mp (h.near (roundHalfEven (x * 10000) / 10000)
    (div_nonneg hnonneg (by norm_num)) (by rw [div_le_iff₀ (by norm_num)]; linarith))
  rw [round4, abs_le]
  constructor <;> linarith

theorem step_near (h : d.Lawful env) (hn : 1 ≤ n) : |d.step n - 1 / n| ≤ 1 / 2 ^ 46 := by
  have hn' : (1 : ℚ) ≤ n := by exact_mod_cast hn
  refine h.near _ (by positivity) ?_
  rw [div_le_iff₀ (by linarith)]
  linarith

/-- A bound before it is clamped and rounded. -/
theorem product_near (h : d.Lawful env) (hn : 1 ≤ n) (hn' : n ≤ 100) {k : ℚ} (hk : 0 ≤ k)
    (hkn : k ≤ n) : |d.nearest (k * d.step n) - k / n| ≤ 101 / 2 ^ 46 := by
  have hn₁ : (1 : ℚ) ≤ n := by exact_mod_cast hn
  have hn₂ : (n : ℚ) ≤ 100 := by exact_mod_cast hn'
  have hstep := step_near h hn
  have hinv : (1 : ℚ) / 100 ≤ 1 / n := one_div_le_one_div_of_le (by linarith) hn₂
  have hinv' : (1 : ℚ) / n ≤ 1 := by rw [div_le_one (by linarith)]; exact hn₁
  have hpos : 0 ≤ d.step n := by linarith [(abs_le.mp hstep).1]
  have hle : d.step n ≤ 101 / 100 := by linarith [(abs_le.mp hstep).2]
  have hnear := h.near (k * d.step n) (mul_nonneg hk hpos) (by nlinarith)
  have hscaled : |k * d.step n - k / n| ≤ 100 / 2 ^ 46 := by
    have heq : k * d.step n - k / n = k * (d.step n - 1 / n) := by ring
    rw [heq, abs_mul, abs_of_nonneg hk]
    calc k * |d.step n - 1 / n| ≤ 100 * (1 / 2 ^ 46) :=
          mul_le_mul (by linarith) hstep (abs_nonneg _) (by norm_num)
      _ = 100 / 2 ^ 46 := by ring
  calc |d.nearest (k * d.step n) - k / n|
      ≤ |d.nearest (k * d.step n) - k * d.step n| + |k * d.step n - k / n| := abs_sub_le _ _ _
    _ ≤ 101 / 2 ^ 46 := by linarith

/-- **The lower bound shown** is the bucket's, up to the tolerance. -/
theorem bucketMin_le (h : d.Lawful env) (hn' : n ≤ 100) {b : Nat} (hb : 1 ≤ b) (hbn : b ≤ n) :
    d.bucketMin b n ≤ ((b : ℚ) - 1) / n + (tolerance - 1 / 2 ^ 46) := by
  have hb₁ : (1 : ℚ) ≤ b := by exact_mod_cast hb
  have hb₂ : (b : ℚ) ≤ n := by exact_mod_cast hbn
  have hk : 0 ≤ ((b : ℚ) - 1) / n := div_nonneg (by linarith) (by linarith)
  have hk' : ((b : ℚ) - 1) / n ≤ 1 := by rw [div_le_one (by linarith)]; linarith
  have hproduct := abs_le.mp (product_near h (le_trans hb hbn) hn' (k := (b : ℚ) - 1)
    (by linarith) (by linarith))
  have hmax : max 0 (d.nearest (((b : ℚ) - 1) * d.step n)) ≤ ((b : ℚ) - 1) / n + 101 / 2 ^ 46 :=
    max_le (by linarith [show (0 : ℚ) ≤ 101 / 2 ^ 46 by norm_num]) (by linarith)
  have hround := abs_le.mp (round4_near h (le_max_left 0 (d.nearest (((b : ℚ) - 1) * d.step n)))
    (by linarith [show (101 : ℚ) / 2 ^ 46 ≤ 1 by norm_num]))
  rw [bucketMin, tolerance]
  linarith [hround.2, show (101 : ℚ) / 2 ^ 46 + 1 / 2 ^ 46 ≤ 1 / 2 ^ 39 - 1 / 2 ^ 46 by norm_num]

/-- **The upper bound shown** likewise. -/
theorem le_bucketMax (h : d.Lawful env) (hn' : n ≤ 100) {b : Nat} (hb : 1 ≤ b) (hbn : b ≤ n) :
    (b : ℚ) / n - (tolerance - 1 / 2 ^ 46) ≤ d.bucketMax b n := by
  have hb₁ : (1 : ℚ) ≤ b := by exact_mod_cast hb
  have hb₂ : (b : ℚ) ≤ n := by exact_mod_cast hbn
  have hn : (n : ℚ) ≤ 100 := by exact_mod_cast hn'
  have hk : (1 : ℚ) / 100 ≤ b / n := div_le_div₀ (by linarith) hb₁ (by linarith) hn
  have hk' : (b : ℚ) / n ≤ 1 := by rw [div_le_one (by linarith)]; exact hb₂
  have hproduct := abs_le.mp (product_near h (le_trans hb hbn) hn' (k := (b : ℚ))
    (by linarith) hb₂)
  have hmin : (b : ℚ) / n - 101 / 2 ^ 46 ≤ min 1 (d.nearest (b * d.step n)) :=
    le_min (by linarith [show (0 : ℚ) ≤ 101 / 2 ^ 46 by norm_num]) (by linarith)
  have hround := abs_le.mp (round4_near h (x := min 1 (d.nearest (b * d.step n)))
    (by linarith [show (101 : ℚ) / 2 ^ 46 ≤ 1 / 100 by norm_num])
    (le_trans (min_le_left _ _) (by norm_num)))
  rw [bucketMax, tolerance]
  linarith [hround.1, show (101 : ℚ) / 2 ^ 46 + 1 / 2 ^ 46 ≤ 1 / 2 ^ 39 - 1 / 2 ^ 46 by norm_num]

/-! ## Buckets -/

theorem widthBucket_of_one_le {x : ℚ} (hx : 1 ≤ x) : d.widthBucket x n = n + 1 := by
  rw [widthBucket, if_neg (by linarith), if_pos hx]

/-- **A value below 1 is in one of the buckets**, up to the error of the product. -/
theorem widthBucket_spec (h : d.Lawful env) (hn : 1 ≤ n) (hn' : n ≤ 100) {x : ℚ} (hx : 0 ≤ x)
    (hx' : x < 1) :
    1 ≤ d.widthBucket x n ∧ d.widthBucket x n ≤ n ∧
      ((d.widthBucket x n : ℚ) - 1) / n - 1 / 2 ^ 46 ≤ x ∧
      x ≤ (d.widthBucket x n : ℚ) / n + 1 / 2 ^ 46 := by
  have hn₁ : (1 : ℚ) ≤ n := by exact_mod_cast hn
  have hn₂ : (n : ℚ) ≤ 100 := by exact_mod_cast hn'
  rw [widthBucket, if_neg (not_lt.mpr hx), if_neg (not_le.mpr hx')]
  have hnear := abs_le.mp (h.near (n * x) (mul_nonneg (by linarith) hx) (by nlinarith))
  refine ⟨Nat.le_add_left 1 _, by omega, ?_, ?_⟩
  · -- the floor is not above the product, nor is what the cap makes of it
    have hfloor : ((min ⌊d.nearest (n * x)⌋₊ (n - 1) : ℕ) : ℚ) ≤ n * x + 1 / 2 ^ 46 := by
      refine le_trans (Nat.cast_le.mpr (Nat.min_le_left _ _)) ?_
      rcases le_total 0 (d.nearest (n * x)) with hpos | hneg
      · exact le_trans (Nat.floor_le hpos) (by linarith)
      · rw [Nat.floor_of_nonpos hneg, Nat.cast_zero]
        positivity
    push_cast at hfloor ⊢
    rw [sub_le_iff_le_add, div_le_iff₀ (by linarith)]
    nlinarith [show (0 : ℚ) ≤ 1 / 2 ^ 46 by norm_num]
  · rcases Nat.lt_or_ge ⌊d.nearest (n * x)⌋₊ n with hlt | hge
    · have hfloor := Nat.lt_floor_add_one (d.nearest (n * x))
      rw [Nat.min_eq_left (by omega)]
      push_cast
      rw [← sub_le_iff_le_add, le_div_iff₀ (by linarith)]
      nlinarith [show (0 : ℚ) ≤ 1 / 2 ^ 46 by norm_num]
    · rw [Nat.min_eq_right (by omega), Nat.sub_add_cancel hn, div_self (by linarith)]
      linarith [show (0 : ℚ) ≤ 1 / 2 ^ 46 by norm_num]

/-! ## The histogram -/

theorem bucketCol_eq_some {v : Option String} {b : Nat} :
    d.bucketCol n v = some (some b) ↔
      ∃ t x, v = some t ∧ d.cast t = some x ∧ b = d.widthBucket (d.toRat x) n := by
  cases v with
  | none => simp [bucketCol]
  | some t => simp [bucketCol, eq_comm]

theorem mem_reference {α : Type} {c : Paging.Comparison α} {l : List α} {x : α} :
    x ∈ c.reference l ↔ x ∈ l :=
  (Paging.Comparison.sorts_reference l).1.mem_iff

/-- The item of a bucket. -/
def itemOf (d : Doubles F) (n : Nat) (buckets : List (Option Nat)) (b : Nat) :
    ScoreDistributionItem :=
  ⟨b, d.bucketMin b n, d.bucketMax b n, buckets.count (some b)⟩

/-- The items are those of the buckets of the column. -/
theorem mem_items {buckets : List (Option Nat)} {items : List ScoreDistributionItem}
    (h : d.items n buckets = some items) {item : ScoreDistributionItem} :
    item ∈ items ↔ ∃ b, some b ∈ buckets ∧ item = d.itemOf n buckets b := by
  rw [Fallible.mem_mapM h]
  constructor
  · rintro ⟨bucket, hbucket, hitem⟩
    rw [mem_reference, List.mem_dedup] at hbucket
    obtain ⟨b, rfl, rfl⟩ := Option.map_eq_some_iff.mp hitem
    exact ⟨b, hbucket, rfl⟩
  · rintro ⟨b, hbucket, rfl⟩
    refine ⟨some b, ?_, rfl⟩
    rw [mem_reference, List.mem_dedup]
    exact hbucket

/-- The items can be computed if and only if no bucket is `NULL`. -/
theorem isSome_items_iff {buckets : List (Option Nat)} :
    (d.items n buckets).isSome ↔ none ∉ buckets := by
  rw [items, Fallible.isSome_mapM_iff]
  simp only [mem_reference, List.mem_dedup, Option.isSome_map]
  constructor
  · exact fun h hnone => absurd (h none hnone) (by simp)
  · intro h bucket hbucket
    cases bucket with
    | none => exact absurd hbucket h
    | some b => rfl

/-- The counts add up to the number of rows. -/
theorem sum_counts {buckets : List (Option Nat)} {items : List ScoreDistributionItem}
    (h : d.items n buckets = some items) :
    (items.map ScoreDistributionItem.count).sum = buckets.length := by
  have hcounts : ∀ {groups : List (Option Nat)} {items : List ScoreDistributionItem},
      List.Forall₂ (fun bucket item => bucket.map (d.itemOf n buckets) = some item) groups items →
      items.map ScoreDistributionItem.count = groups.map (buckets.count ·) := by
    intro groups items hall
    induction hall with
    | nil => rfl
    | cons hone _ ih =>
      obtain ⟨b, rfl, rfl⟩ := Option.map_eq_some_iff.mp hone
      rw [List.map_cons, List.map_cons, ih]
      rfl
  rw [hcounts (Fallible.mapM_eq_some_iff.mp h),
    ((Paging.Comparison.sorts_reference _).1.map _).sum_eq]
  convert List.sum_map_count_dedup_eq_length buckets
  rfl

/-- Every value that is there is in the unit interval. -/
def InUnit (env : EvalEnv F) (values : List (Option String)) : Prop :=
  ∀ t, some t ∈ values → ∃ x, env.float t = some x ∧ env.inUnit x = true

theorem InUnit.cast (h : d.Lawful env) (hunit : InUnit env values) {t : String} {x : F}
    (ht : some t ∈ values) (hx : d.cast t = some x) : 0 ≤ d.toRat x ∧ d.toRat x ≤ 1 := by
  obtain ⟨y, hy, hin⟩ := hunit t ht
  rw [h.cast_eq t y x hy hin hx]
  exact h.inUnit y hin

theorem histogram_of_countable (h : d.Lawful env) (hunit : InUnit env values) (hn : 1 ≤ n)
    (hn' : n ≤ 100) (hc : d.Countable values) :
    ∃ items, d.histogram values n = some items ∧ d.Faithful values n items := by
  have hcol : ∀ v ∈ values, ∃ b, d.bucketCol n v = some (some b) := by
    intro v hv
    obtain ⟨t, x, rfl, hx, -⟩ := hc v hv
    exact ⟨_, bucketCol_eq_some.mpr ⟨t, x, rfl, hx, rfl⟩⟩
  have hsome : (values.mapM (d.bucketCol n)).isSome := by
    refine Fallible.isSome_mapM_iff.mpr fun v hv => ?_
    obtain ⟨b, hb⟩ := hcol v hv
    rw [hb]
    rfl
  obtain ⟨buckets, hbuckets⟩ := Option.isSome_iff_exists.mp hsome
  have hmem : ∀ {bucket}, bucket ∈ buckets ↔ ∃ v ∈ values, d.bucketCol n v = some bucket :=
    Fallible.mem_mapM hbuckets
  have hnull : none ∉ buckets := by
    intro hnone
    obtain ⟨v, hv, hnone⟩ := hmem.mp hnone
    obtain ⟨b, hb⟩ := hcol v hv
    rw [hb] at hnone
    cases hnone
  obtain ⟨items, hitems⟩ := Option.isSome_iff_exists.mp (isSome_items_iff (d := d) (n := n).mpr hnull)
  refine ⟨items, by rw [histogram, hbuckets, Option.bind_some, hitems], ?_, ?_, ?_⟩
  · intro item hitem
    obtain ⟨b, hb, rfl⟩ := (mem_items hitems).mp hitem
    obtain ⟨v, hv, hb⟩ := hmem.mp hb
    obtain ⟨t, x, rfl, hx, rfl⟩ := bucketCol_eq_some.mp hb
    obtain ⟨t', x', heq, hx', hlt⟩ := hc _ hv
    cases heq
    obtain rfl := Option.some.inj (hx.symm.trans hx')
    have hspec := widthBucket_spec h hn hn' (hunit.cast h hv hx).1 hlt
    exact ⟨hspec.1, hspec.2.1⟩
  · intro t x ht hx
    obtain ⟨t', x', heq, hx', hlt⟩ := hc _ ht
    cases heq
    obtain rfl := Option.some.inj (hx.symm.trans hx')
    obtain ⟨hb, hbn, hlo, hhi⟩ := widthBucket_spec h hn hn' (hunit.cast h ht hx).1 hlt
    refine ⟨d.itemOf n buckets (d.widthBucket (d.toRat x) n), (mem_items hitems).mpr
      ⟨_, hmem.mpr ⟨_, ht, bucketCol_eq_some.mpr ⟨t, x, rfl, hx, rfl⟩⟩, rfl⟩, rfl, ?_, ?_⟩
    · have hmin := bucketMin_le h hn' hb hbn
      simp only [itemOf]
      linarith
    · have hmax := le_bucketMax h hn' hb hbn
      simp only [itemOf]
      linarith
  · rw [sum_counts hitems, ← (Fallible.mapM_eq_some_iff.mp hbuckets).length_eq]

theorem countable_of_histogram {items : List ScoreDistributionItem}
    (hitems : d.histogram values n = some items) (hf : d.Faithful values n items) : d.Countable values := by
  obtain ⟨buckets, hbuckets, hitems⟩ := Option.bind_eq_some_iff.mp hitems
  intro v hv
  have hsome := Fallible.isSome_mapM_iff.mp (Option.isSome_of_eq_some hbuckets) v hv
  obtain ⟨bucket, hbucket⟩ := Option.isSome_iff_exists.mp hsome
  have hmem : bucket ∈ buckets := (Fallible.mem_mapM hbuckets).mpr ⟨v, hv, hbucket⟩
  cases bucket with
  | none => exact absurd hmem (isSome_items_iff.mp (Option.isSome_of_eq_some hitems))
  | some b =>
    obtain ⟨t, x, rfl, hx, rfl⟩ := bucketCol_eq_some.mp hbucket
    refine ⟨t, x, rfl, hx, ?_⟩
    by_contra hge
    -- then its bucket is the one after the last
    have hlast := (hf.bucket _ ((mem_items hitems).mpr ⟨_, hmem, rfl⟩)).2
    rw [itemOf, widthBucket_of_one_le (not_lt.mp hge)] at hlast
    exact absurd hlast (Nat.not_succ_le_self n)

/-- **Exactly when a histogram is faithful.** -/
theorem faithful_iff (h : d.Lawful env) (hunit : InUnit env values) (hn : 1 ≤ n) (hn' : n ≤ 100) :
    (∃ items, d.histogram values n = some items ∧ d.Faithful values n items) ↔
      d.Countable values :=
  ⟨fun ⟨_, hitems, hf⟩ => countable_of_histogram hitems hf,
    histogram_of_countable h hunit hn hn'⟩

end Doubles

/-! ## The scores that are stored -/

namespace ScoreRun
open EvalDb Restart
variable {F : Type} (env : EvalEnv F) (s : ScoreRun F)

/-- Session scores are written by the run tasks; elsewhere they are only deleted. -/
def RunWrites : ScoreAct F → Prop
  | .elsewhere _ sessionScores _ _ => ∀ row ∈ sessionScores, row ∈ s.db.sessionScores
  | _ => True

/-- Every stored value that is there is valid for its data type. -/
structure Ranged (db : EvalDb F) : Prop where
  scores : ∀ row ∈ db.scores, row.value.all (validateScoreValue env · row.dataType) = true
  sessionScores : ∀ row ∈ db.sessionScores,
    row.value.all (validateScoreValue env · row.dataType) = true

variable {env s} {s' : ScoreRun F} {db db' : EvalDb F}

theorem ranged_of_subset (h : Ranged env db) (hscores : ∀ row ∈ db'.scores, row ∈ db.scores)
    (hsession : ∀ row ∈ db'.sessionScores, row ∈ db.sessionScores) : Ranged env db' :=
  ⟨fun row hrow => h.scores row (hscores row hrow),
    fun row hrow => h.sessionScores row (hsession row hrow)⟩

theorem ranged_append {rows : List TraceScore} (h : Ranged env db)
    (hrows : ∀ row ∈ rows, RowOk env row) : Ranged env { db with scores := db.scores ++ rows } := by
  refine ⟨fun row hrow => ?_, h.sessionScores⟩
  rcases List.mem_append.mp hrow with hrow | hrow
  · exact h.scores row hrow
  · exact (hrows row hrow).1

theorem metricScore_ranged (task : SessionTask) (run : EvalRun F) (sid : String)
    (traces : List Trace) (signals : SessionSignals F) (tick : Nat) (name : String) :
    let row := (SessionEval.metricScore env task run sid traces signals tick name).1
    row.value.all (validateScoreValue env · row.dataType) = true := by
  simp only [SessionEval.metricScore]
  split
  · split
    next hvalid => simpa [SessionEval.sessionScore] using hvalid
    · rfl
  · rfl

theorem ranged_createScore {projectId traceId : UUID} {name value : String}
    {dataType : ScoreDataType} {source : ScoreSource} {reason : Option String}
    {metadata : JsonDict} {id : UUID} {now : DateTime} (h : Ranged env db)
    (hdb : db.createScore env projectId traceId name value dataType source reason metadata id now =
      some db') : Ranged env db' := by
  unfold createScore at hdb
  split at hdb
  next hok =>
    cases hdb
    refine ranged_append h fun row hrow => ?_
    rw [List.mem_singleton.mp hrow]
    exact rowOk_value rfl (Bool.and_eq_true_iff.mp hok).1
  · cases hdb

theorem ranged_updateScore {scoreId projectId : UUID} {value reason : Option String}
    {metadata : Option JsonDict} {now : DateTime} (h : Ranged env db)
    (hdb : db.updateScore env scoreId projectId value reason metadata now = some db') :
    Ranged env db' := by
  unfold updateScore at hdb
  split at hdb
  · cases hdb
  next existing hget =>
    split at hdb
    next hvalid =>
      cases hdb
      refine ⟨fun row hrow => ?_, h.sessionScores⟩
      obtain ⟨old, hold, rfl⟩ := List.mem_map.mp hrow
      split
      next hscore =>
        obtain rfl := getScoreById_spec hget old hold hscore
        cases value with
        | none => exact h.scores old hold
        | some v => exact hvalid
      · exact h.scores old hold
    · cases hdb

theorem ranged_deleteEvalRun {runId projectId : UUID} {session deleteScores : Bool}
    (h : Ranged env db) : Ranged env (db.deleteEvalRun runId projectId session deleteScores) := by
  constructor
  · intro row hrow
    obtain ⟨old, hold, rfl⟩ := List.mem_map.mp hrow
    have hmem : old ∈ db.scores := by
      cases deleteScores with
      | false => exact hold
      | true =>
        cases session with
        | false => exact (List.mem_filter.mp hold).1
        | true => exact (List.mem_filter.mp hold).1
    split
    · exact h.scores old hmem
    · exact h.scores old hmem
  · intro row hrow
    obtain ⟨old, hold, rfl⟩ := List.mem_map.mp hrow
    have hmem : old ∈ db.sessionScores := by
      cases deleteScores with
      | false => exact hold
      | true =>
        cases session with
        | false => exact hold
        | true => exact (List.mem_filter.mp hold).1
    split
    · exact h.sessionScores old hmem
    · exact h.sessionScores old hmem

theorem ranged_traceTask (metrics : TraceMetrics F) (task : TraceTask) :
    task.Kept env metrics (Ranged env) where
  score db name evaluate model tr tick _ h := by
    refine ranged_append h fun row hrow => ?_
    rw [List.mem_singleton.mp hrow]
    exact rowOk_outcome task evaluate model tr name tick
  run _ _ _ h := ⟨h.scores, h.sessionScores⟩
  delete _ h := ranged_of_subset h (fun _ hrow => (List.mem_filter.mp hrow).1) (fun _ hrow => hrow)

theorem ranged_sessionTask (answers : Answers F) (task : SessionTask) :
    task.Kept env answers (Ranged env) where
  signal _ model tr prior sig tick h :=
    ranged_append h (rowOk_resolveSignal answers task model tr prior sig tick)
  metric _ run sid traces signals name tick _ _ h := by
    refine ⟨h.scores, fun row hrow => ?_⟩
    rcases List.mem_append.mp hrow with hrow | hrow
    · exact h.sessionScores row hrow
    · rw [List.mem_singleton.mp hrow]
      exact metricScore_ranged task run sid traces signals tick name
  run _ _ _ h := ⟨h.scores, h.sessionScores⟩
  delete _ h := ranged_of_subset h (fun _ hrow => (List.mem_filter.mp hrow).1) (fun _ hrow => hrow)
  deleteSession _ h :=
    ranged_of_subset h (fun _ hrow => hrow) (fun _ hrow => (List.mem_filter.mp hrow).1)

/-- **One step keeps the stored values valid.** -/
theorem ranged_step {a : ScoreAct F} (h : Holds (Ranged env) s) (ha : s.RunWrites a)
    (hs : s.step env a = some s') : Holds (Ranged env) s' := by
  refine holds_step h ranged_traceTask ranged_sessionTask (fun db' hdb => ?_) hs
  cases a with
  | createScore projectId traceId name value dataType source reason metadata id now =>
    exact ranged_createScore h.db hdb
  | updateScore scoreId projectId value reason metadata now => exact ranged_updateScore h.db hdb
  | deleteScore scoreId projectId =>
    cases hdb
    exact ranged_of_subset h.db (fun _ hrow => (List.mem_filter.mp hrow).1) (fun _ hrow => hrow)
  | deleteEvalRun runId projectId session deleteScores =>
    cases hdb
    exact ranged_deleteEvalRun h.db
  | deleteTraces p =>
    cases hdb
    exact ranged_of_subset h.db (fun _ hrow => (List.mem_filter.mp hrow).1) (fun _ hrow => hrow)
  | elsewhere traces sessionScores runs nodup =>
    cases hdb
    exact ranged_of_subset h.db (fun _ hrow => hrow) ha
  | runEvalRun w metrics task => cases hdb
  | runSessionEval w answers task => cases hdb
  | work w => cases hdb
  | crash w => cases hdb

/-- What is stored is valid in every run. -/
theorem ranged_of_reach {db₀ : EvalDb F} (hscores : db₀.scores = [])
    (hsession : db₀.sessionScores = [])
    (h : GuardedRun.Reach (step env) RunWrites (initial db₀) s) : Ranged env s.db := by
  have hstart : Holds (Ranged env) (initial db₀) := by
    refine ⟨⟨fun row hrow => ?_, fun row hrow => ?_⟩, fun w x hx => by cases hx⟩
    · simp [initial, hscores] at hrow
    · simp [initial, hsession] at hrow
  exact (h.invariant hstart fun _ _ _ h ha hs => ranged_step h ha hs).db

/-- The numbers a distribution counts are in the unit interval. -/
theorem inUnit_counted (h : Ranged env db) (q : DistributionQuery) :
    Doubles.InUnit env ((db.countedScores q).map TraceScore.value) ∧
      Doubles.InUnit env ((db.countedSessionScores q).map SessionScore.value) := by
  constructor
  · intro t ht
    obtain ⟨row, hrow, hvalue⟩ := List.mem_map.mp ht
    obtain ⟨hmem, hcounts⟩ := List.mem_filter.mp hrow
    have hvalid := h.scores row hmem
    simp only [DistributionQuery.counts, Bool.and_eq_true, decide_eq_true_eq] at hcounts
    rw [hvalue, hcounts.1.1.1.2, Option.all_some] at hvalid
    exact (Option.any_eq_true _ _).mp hvalid
  · intro t ht
    obtain ⟨row, hrow, hvalue⟩ := List.mem_map.mp ht
    obtain ⟨hmem, hcounts⟩ := List.mem_filter.mp hrow
    have hvalid := h.sessionScores row hmem
    simp only [DistributionQuery.counts, Bool.and_eq_true, decide_eq_true_eq] at hcounts
    rw [hvalue, hcounts.1.1.1.2, Option.all_some] at hvalid
    exact (Option.any_eq_true _ _).mp hvalid

/-- **Exactly when the histograms are faithful.**  In every state of every run and for every
number of buckets from 1 to 100: `get_score_distribution`, and likewise
`get_session_score_distribution`, returns a faithful histogram of the values it counts if and
only if each of them is there, is a number to Postgres, and is below 1. -/
theorem histograms_faithful_iff {F : Type} {env : EvalEnv F} {d : Doubles F} (hd : d.Lawful env)
    {db₀ : EvalDb F} (hscores : db₀.scores = []) (hsession : db₀.sessionScores = [])
    {s : ScoreRun F} (h : GuardedRun.Reach (step env) RunWrites (initial db₀) s)
    (q : DistributionQuery) {n : Nat} (hn : 1 ≤ n) (hn' : n ≤ 100) :
    ((∃ items, s.db.getScoreDistribution d q n = some items ∧
        d.Faithful ((s.db.countedScores q).map TraceScore.value) n items) ↔
      d.Countable ((s.db.countedScores q).map TraceScore.value)) ∧
    ((∃ items, s.db.getSessionScoreDistribution d q n = some items ∧
        d.Faithful ((s.db.countedSessionScores q).map SessionScore.value) n items) ↔
      d.Countable ((s.db.countedSessionScores q).map SessionScore.value)) := by
  have hunit := inUnit_counted (ranged_of_reach hscores hsession h) q
  exact ⟨Doubles.faithful_iff hd hunit.1 hn hn', Doubles.faithful_iff hd hunit.2 hn hn'⟩

/-! ## Scores in four buckets, a score of 1, and one without a value -/

section Quarters
open SessionEval

/-- The sample environment, with the texts of the quarters. -/
def quarterEnv : EvalEnv ℚ :=
  { sampleEnv with
    float := fun v =>
      if v = "0.25" then some (1 / 4)
      else if v = "0.5" then some (1 / 2)
      else if v = "0.75" then some (3 / 4)
      else sampleEnv.float v }

/-- Doubles among the quarters, on which every operation with four buckets is exact. -/
def sampleDoubles : Doubles ℚ where
  toRat := id
  nearest := id
  cast := quarterEnv.float

theorem lawful_sampleDoubles : sampleDoubles.Lawful quarterEnv where
  near x _ _ := by simp [sampleDoubles]
  inUnit x hx := by simpa [quarterEnv, sampleEnv, sampleDoubles] using hx
  cast_eq t x y hx _ hy := Option.some.inj (hy.symm.trans hx)

/-- A score of the metric `m`, created by hand. -/
def created (id : UUID) (value : String) : ScoreAct ℚ :=
  .createScore "A" "t" "m" value .numeric .programmatic none (fun _ => none) id 7

/-- All scores of a metric of project `A`. -/
def allOf (metricName : String) : DistributionQuery := ⟨"A", metricName, none, none⟩

/-- Three scores, two of them on the bounds of a bucket. -/
def threeScores : List (ScoreAct ℚ) :=
  [created "i" "0.0", created "j" "0.25", created "k" "0.75"]

theorem histogram_threeScores :
    sampleDoubles.histogram [some "0.0", some "0.25", some "0.75"] 4 =
      some [⟨1, 0, 1 / 4, 1⟩, ⟨2, 1 / 4, 1 / 2, 1⟩, ⟨4, 3 / 4, 1, 1⟩] := by
  have hbuckets : [some "0.0", some "0.25", some "0.75"].mapM (sampleDoubles.bucketCol 4) =
      some [some 1, some 2, some 4] := by decide +kernel
  have hsorted : (Paging.Comparison.ofLinearOrder Nat).missingLargest.reference
      [some 1, some 2, some 4] = [some 1, some 2, some 4] :=
    List.mergeSort_of_pairwise (by decide)
  have hdedup : [some 1, some 2, some 4].dedup = [some 1, some 2, some 4] := by decide
  rw [Doubles.histogram, hbuckets, Option.bind_some, Doubles.items, hdedup, hsorted]
  decide +kernel

/-- Three scores are in three of four buckets. -/
theorem histograms_faithful_quarters : ∃ s,
    GuardedRun.run (step quarterEnv) (initial TraceEval.sampleDb) threeScores = some s ∧
    s.db.getScoreDistribution sampleDoubles (allOf "m") 4 =
      some [⟨1, 0, 1 / 4, 1⟩, ⟨2, 1 / 4, 1 / 2, 1⟩, ⟨4, 3 / 4, 1, 1⟩] ∧
    sampleDoubles.Faithful [some "0.0", some "0.25", some "0.75"] 4
      [⟨1, 0, 1 / 4, 1⟩, ⟨2, 1 / 4, 1 / 2, 1⟩, ⟨4, 3 / 4, 1, 1⟩] := by
  have hview : (GuardedRun.run (step quarterEnv) (initial TraceEval.sampleDb) threeScores).map
      (fun s => (s.db.countedScores (allOf "m")).map TraceScore.value) =
      some [some "0.0", some "0.25", some "0.75"] := by decide +kernel
  obtain ⟨s, hs, hvalues⟩ := Option.map_eq_some_iff.mp hview
  have hshown : s.db.getScoreDistribution sampleDoubles (allOf "m") 4 =
      some [⟨1, 0, 1 / 4, 1⟩, ⟨2, 1 / 4, 1 / 2, 1⟩, ⟨4, 3 / 4, 1, 1⟩] := by
    rw [EvalDb.getScoreDistribution, hvalues, histogram_threeScores]
  have hreach : GuardedRun.Reach (step quarterEnv) RunWrites (initial TraceEval.sampleDb) s := by
    refine GuardedRun.Reach.run_from .initial (fun a ha s => ?_) hs
    simp only [threeScores, List.mem_cons, List.not_mem_nil, or_false] at ha
    rcases ha with rfl | rfl | rfl
    all_goals trivial
  have hiff := (histograms_faithful_iff lawful_sampleDoubles rfl rfl hreach (allOf "m")
    (n := 4) (by decide) (by decide)).1
  rw [hvalues] at hiff
  obtain ⟨items, hitems, hfaithful⟩ := hiff.mpr fun v hv => by
    simp only [List.mem_cons, List.not_mem_nil, or_false] at hv
    rcases hv with rfl | rfl | rfl
    · exact ⟨"0.0", 0, rfl, by decide +kernel, by decide +kernel⟩
    · exact ⟨"0.25", 1 / 4, rfl, by decide +kernel, by decide +kernel⟩
    · exact ⟨"0.75", 3 / 4, rfl, by decide +kernel, by decide +kernel⟩
  obtain rfl := Option.some.inj (hshown.symm.trans hitems)
  exact ⟨s, hs, hshown, hfaithful⟩

/-- **A score of 1 is in the bucket after the last, and after an edit of the reason of a failed
score there is no histogram at all.** -/
theorem histogram_out_of_range :
    (∃ s, GuardedRun.run (step quarterEnv) (initial TraceEval.sampleDb) [created "i" "1.0"] =
        some s ∧
      s.db.getScoreDistribution sampleDoubles (allOf "m") 1 = some [⟨2, 1, 1, 1⟩] ∧
      ¬ ∃ items, s.db.getScoreDistribution sampleDoubles (allOf "m") 1 = some items ∧
        sampleDoubles.Faithful ((s.db.countedScores (allOf "m")).map TraceScore.value) 1 items) ∧
    ∃ s, GuardedRun.run (step quarterEnv) (initial TraceEval.sampleDb)
        (failedMetric ++ [edit none (some "retried by hand")]) = some s ∧
      s.db.countedScores (allOf "coherence") ≠ [] ∧
      s.db.getScoreDistribution sampleDoubles (allOf "coherence") 1 = none := by
  constructor
  · have hone : (GuardedRun.run (step quarterEnv) (initial TraceEval.sampleDb)
        [created "i" "1.0"]).bind (fun s =>
          s.db.getScoreDistribution sampleDoubles (allOf "m") 1) = some [⟨2, 1, 1, 1⟩] := by
      decide +kernel
    obtain ⟨s, hs, hitems⟩ := Option.bind_eq_some_iff.mp hone
    refine ⟨s, hs, hitems, ?_⟩
    rintro ⟨items, hitems', hfaithful⟩
    obtain rfl := Option.some.inj (hitems.symm.trans hitems')
    exact absurd (hfaithful.bucket _ List.mem_cons_self).2 (by decide)
  · have hnone : (GuardedRun.run (step quarterEnv) (initial TraceEval.sampleDb)
        (failedMetric ++ [edit none (some "retried by hand")])).map (fun s =>
          ((s.db.countedScores (allOf "coherence")).length,
            s.db.getScoreDistribution sampleDoubles (allOf "coherence") 1)) =
        some (1, none) := by decide +kernel
    obtain ⟨s, hs, hpair⟩ := Option.map_eq_some_iff.mp hnone
    obtain ⟨hlength, hitems⟩ := Prod.mk.inj hpair
    exact ⟨s, hs, List.ne_nil_of_length_pos (by omega), hitems⟩

end Quarters

end ScoreRun
end PandaProbe
