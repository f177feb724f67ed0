import PandaProbe.Registry
import PandaProbe.Replay

/-! # The quota scripts

The two Lua scripts of `services/usage_service.py`.  Redis runs a script
atomically, so a script is a function of the store.  The store is what the scripts
read and write: the usage hashes, and the replies kept under retry-deduplication
keys.  A missing hash field counts as zero.  Below `10^14` Lua prints and parses
integers exactly, so a remembered reply is kept as the number itself.

An operation is identified by the `uuid4` its caller draws; executing it again
under the same identity is a replay.  `QuotaScripts.counters_linearizable` is the
main result: whatever the order of executions, replays and key expiries, a field
is its initial value plus the distinct accepted increments minus the distinct
rollbacks.
-/
namespace PandaProbe
open Replay

/-- The usage hashes of Redis and the retry-deduplication keys. -/
structure UsageStore where
  hash : String → UsageCategory → Option Int
  dedup : String → Option Int

namespace UsageStore

/-- A counter, read as a number. -/
def value (st : UsageStore) (key : String) (field : UsageCategory) : Int :=
  (st.hash key field).getD 0

/-- Set one hash field. -/
def hset (st : UsageStore) (key : String) (field : UsageCategory) (n : Int) : UsageStore :=
  { st with hash := Function.update st.hash key (Function.update (st.hash key) field (some n)) }

/-- `HINCRBY key field n`, which returns the new value. -/
def hincrby (st : UsageStore) (key : String) (field : UsageCategory) (n : Int) :
    UsageStore × Int :=
  (st.hset key field (st.value key field + n), st.value key field + n)

/-- `SET key reply EX ttl` on a retry-deduplication key. -/
def setDedup (st : UsageStore) (key : String) (reply : Int) : UsageStore :=
  { st with dedup := Function.update st.dedup key (some reply) }

/-- A retry-deduplication key reaches the end of its time to live. -/
def expireDedup (st : UsageStore) (key : String) : UsageStore :=
  { st with dedup := Function.update st.dedup key none }

@[simp] theorem hset_dedup (st : UsageStore) (k : String) (c : UsageCategory) (n : Int) :
    (st.hset k c n).dedup = st.dedup := rfl

@[simp] theorem setDedup_hash (st : UsageStore) (k : String) (r : Int) :
    (st.setDedup k r).hash = st.hash := rfl

@[simp] theorem setDedup_dedup (st : UsageStore) (k : String) (r : Int) :
    (st.setDedup k r).dedup = Function.update st.dedup k (some r) := rfl

@[simp] theorem hset_hash (st : UsageStore) (k : String) (c : UsageCategory) (n : Int) :
    (st.hset k c n).hash k = Function.update (st.hash k) c (some n) := by
  simp [hset]

theorem hset_hset (st : UsageStore) (k : String) (c : UsageCategory) (n m : Int) :
    (st.hset k c n).hset k c m = st.hset k c m := by
  simp [hset]

theorem value_hset (st : UsageStore) (k k' : String) (c c' : UsageCategory) (n : Int) :
    (st.hset k c n).value k' c' = if k' = k ∧ c' = c then n else st.value k' c' := by
  by_cases hk : k' = k
  · subst hk
    by_cases hc : c' = c
    · simp [value, hc]
    · simp [value, hc]
  · simp [value, hset, hk]

@[simp] theorem value_setDedup (st : UsageStore) (k k' : String) (r : Int) (c : UsageCategory) :
    (st.setDedup k r).value k' c = st.value k' c := rfl

end UsageStore

/-- `_CHECK_AND_INCREMENT_LUA`: increment first, undo on overflow.  A negative
limit is no limit. -/
def checkAndIncrementLua (st : UsageStore) (usageKey dedupKey : String) (field : UsageCategory)
    (count limit : Int) : UsageStore × Int :=
  match st.dedup dedupKey with
  | some cached => (st, cached)
  | none =>
    let (st, current) := st.hincrby usageKey field count
    if limit ≥ 0 ∧ current > limit then
      let (st, _) := st.hincrby usageKey field (-count)
      (st.setDedup dedupKey (-1), -1)
    else (st.setDedup dedupKey current, current)

/-- `_ROLLBACK_INCREMENT_LUA`. -/
def rollbackIncrementLua (st : UsageStore) (usageKey dedupKey : String) (field : UsageCategory)
    (count : Int) : UsageStore × Int :=
  match st.dedup dedupKey with
  | some cached => (st, cached)
  | none =>
    let (st, current) := st.hincrby usageKey field (-count)
    (st.setDedup dedupKey current, current)

/-- `f"{usage_key}:retry:{uuid4().hex}"`. -/
def retryKey (usageKey : String) (id : UUID) : String := usageKey ++ ":retry:" ++ id

/-- `f"{usage_key}:rollback-retry:{uuid4().hex}"`. -/
def rollbackRetryKey (usageKey : String) (id : UUID) : String :=
  usageKey ++ ":rollback-retry:" ++ id

theorem retryKey_ne_rollbackRetryKey (usageKey : String) (i j : UUID) :
    retryKey usageKey i ≠ rollbackRetryKey usageKey j := by
  unfold retryKey rollbackRetryKey
  intro h
  rw [String.append_assoc, String.append_assoc, String.append_right_inj] at h
  have h' := congrArg (fun s => s.toList[2]?) h
  simp at h'

/-- What an execution of the check-and-increment script does when its reply is
not remembered: it is rejected and leaves the counter as it was, or it counts. -/
theorem checkAndIncrementLua_fresh {st : UsageStore} {k d : String} {c : UsageCategory}
    {n limit : Int} (h : st.dedup d = none) :
    checkAndIncrementLua st k d c n limit =
      if limit ≥ 0 ∧ st.value k c + n > limit then
        ((st.hset k c (st.value k c)).setDedup d (-1), -1)
      else ((st.hset k c (st.value k c + n)).setDedup d (st.value k c + n), st.value k c + n) := by
  have hback : (st.hset k c (st.value k c + n)).value k c + -n = st.value k c := by
    rw [UsageStore.value_hset, if_pos ⟨rfl, rfl⟩]
    omega
  simp only [checkAndIncrementLua, h, UsageStore.hincrby]
  rw [hback, UsageStore.hset_hset]
  rfl

theorem rollbackIncrementLua_fresh {st : UsageStore} {k d : String} {c : UsageCategory}
    {n : Int} (h : st.dedup d = none) :
    rollbackIncrementLua st k d c n =
      ((st.hset k c (st.value k c + -n)).setDedup d (st.value k c + -n), st.value k c + -n) := by
  simp only [rollbackIncrementLua, h, UsageStore.hincrby]

namespace QuotaScripts

/-- One call of a script: its kind, field and arguments. -/
inductive ScriptOp
  | checkAndIncrement (field : UsageCategory) (count : Nat) (limit : Int)
  | rollback (field : UsageCategory) (count : Nat)

namespace ScriptOp

/-- The hash field the call names. -/
def field : ScriptOp → UsageCategory
  | checkAndIncrement c _ _ => c
  | rollback c _ => c

/-- The number of units the call names. -/
def count : ScriptOp → Nat
  | checkAndIncrement _ n _ => n
  | rollback _ n => n

/-- The retry-deduplication key of a call. -/
def dedupKey (usageKey : String) (id : UUID) : ScriptOp → String
  | checkAndIncrement .. => retryKey usageKey id
  | rollback .. => rollbackRetryKey usageKey id

end ScriptOp

/-- The branch a script takes. -/
inductive Branch
  | replayed | accepted | rejected | rolledBack
  deriving DecidableEq, Repr

/-- One execution of a script on the hash under study. -/
structure Execution where
  id : UUID
  branch : Branch
  reply : Int

section Runs
variable (usageKey : String) (op : UUID → ScriptOp)

/-- Execute operation `id`. -/
def exec (st : UsageStore) (id : UUID) : UsageStore × Int :=
  match op id with
  | .checkAndIncrement c n limit =>
      checkAndIncrementLua st usageKey (retryKey usageKey id) c n limit
  | .rollback c n => rollbackIncrementLua st usageKey (rollbackRetryKey usageKey id) c n

/-- The branch that executing operation `id` takes. -/
def branch (st : UsageStore) (id : UUID) : Branch :=
  if (st.dedup ((op id).dedupKey usageKey id)).isSome then .replayed
  else
    match op id with
    | .checkAndIncrement c n limit =>
        if limit ≥ 0 ∧ st.value usageKey c + n > limit then .rejected else .accepted
    | .rollback .. => .rolledBack

/-- Execute an operation, or let the memory of one expire. -/
def step (st : UsageStore) : Event UUID → UsageStore
  | .exec id => (exec usageKey op st id).1
  | .expire id => st.expireDedup ((op id).dedupKey usageKey id)

/-- A whole interleaving of executions and expiries. -/
def run (st : UsageStore) (es : List (Event UUID)) : UsageStore :=
  es.foldl (step usageKey op) st

/-- The executions of a run, in order. -/
def executions (st : UsageStore) : List (Event UUID) → List Execution
  | [] => []
  | .exec id :: es =>
      ⟨id, branch usageKey op st id, (exec usageKey op st id).2⟩ ::
        executions (step usageKey op st (.exec id)) es
  | .expire id :: es => executions (step usageKey op st (.expire id)) es

/-- The distinct operations on `field` that took branch `b` in a run. -/
def distinct (b : Branch) (field : UsageCategory) (xs : List Execution) : Finset UUID :=
  ((xs.filter (fun x => x.branch = b ∧ (op x.id).field = field)).map Execution.id).toFinset

end Runs

/-! ## A run of the scripts is a run of remembered operations -/

section View
variable (usageKey : String) (op : UUID → ScriptOp)

/-- What an operation does to the hash and replies, apart from remembering. -/
def effect (id : UUID) (h : UsageCategory → Option Int) : (UsageCategory → Option Int) × Int :=
  match op id with
  | .checkAndIncrement c n limit =>
      if limit ≥ 0 ∧ (h c).getD 0 + n > limit then
        (Function.update h c (some ((h c).getD 0)), -1)
      else (Function.update h c (some ((h c).getD 0 + n)), (h c).getD 0 + n)
  | .rollback c n => (Function.update h c (some ((h c).getD 0 + -n)), (h c).getD 0 + -n)

/-- The store seen from one usage hash: its fields, and the remembered replies. -/
def view (st : UsageStore) : Memo (UsageCategory → Option Int) UUID Int :=
  ⟨st.hash usageKey, fun id => st.dedup ((op id).dedupKey usageKey id)⟩

theorem dedupKey_injective : Function.Injective (fun id => (op id).dedupKey usageKey id) := by
  intro i j h
  simp only [ScriptOp.dedupKey] at h
  cases hi : op i <;> cases hj : op j <;> rw [hi, hj] at h
  · simpa [retryKey] using h
  · exact absurd h (retryKey_ne_rollbackRetryKey usageKey i j)
  · exact absurd h.symm (retryKey_ne_rollbackRetryKey usageKey j i)
  · simpa [rollbackRetryKey] using h

/-- Writing one deduplication key is writing one remembered reply. -/
theorem update_dedup (d : String → Option Int) (id : UUID) (r : Option Int) :
    (fun j => Function.update d ((op id).dedupKey usageKey id) r ((op j).dedupKey usageKey j)) =
      Function.update (fun j => d ((op j).dedupKey usageKey j)) id r := by
  funext j
  by_cases hj : j = id
  · subst hj
    simp
  · rw [Function.update_of_ne hj,
      Function.update_of_ne (fun h => hj (dedupKey_injective usageKey op h))]

/-- **A script execution is a remembered operation.** -/
theorem view_exec (st : UsageStore) (id : UUID) :
    (view usageKey op (exec usageKey op st id).1, (exec usageKey op st id).2) =
      (view usageKey op st).exec (effect op) id := by
  unfold Memo.exec exec
  cases hd : st.dedup ((op id).dedupKey usageKey id) with
  -- the reply is remembered under the key of this operation: a replay
  | some r =>
    have hview : (view usageKey op st).replies id = some r := hd
    rw [hview]
    cases hop : op id with
    | checkAndIncrement c n limit =>
      simp only [ScriptOp.dedupKey, hop] at hd
      simp [checkAndIncrementLua, hd]
    | rollback c n =>
      simp only [ScriptOp.dedupKey, hop] at hd
      simp [rollbackIncrementLua, hd]
  | none =>
    have hview : (view usageKey op st).replies id = none := hd
    have hupd := update_dedup usageKey op st.dedup id
    rw [hview]
    cases hop : op id with
    | checkAndIncrement c n limit =>
      simp only [ScriptOp.dedupKey, hop] at hd hupd
      simp only [checkAndIncrementLua_fresh hd]
      have hval : st.value usageKey c = ((view usageKey op st).state c).getD 0 := rfl
      simp only [effect, hop, ← hval]
      split
      · simp only [view, UsageStore.setDedup_hash, UsageStore.hset_hash,
          UsageStore.setDedup_dedup, UsageStore.hset_dedup]
        exact Prod.ext (Memo.ext rfl (hupd _)) rfl
      · simp only [view, UsageStore.setDedup_hash, UsageStore.hset_hash,
          UsageStore.setDedup_dedup, UsageStore.hset_dedup]
        exact Prod.ext (Memo.ext rfl (hupd _)) rfl
    | rollback c n =>
      simp only [ScriptOp.dedupKey, hop] at hd hupd
      simp only [rollbackIncrementLua_fresh hd]
      have hval : st.value usageKey c = ((view usageKey op st).state c).getD 0 := rfl
      simp only [effect, hop, ← hval]
      simp only [view, UsageStore.setDedup_hash, UsageStore.hset_hash,
        UsageStore.setDedup_dedup, UsageStore.hset_dedup]
      exact Prod.ext (Memo.ext rfl (hupd _)) rfl

theorem view_step (st : UsageStore) (e : Event UUID) :
    view usageKey op (step usageKey op st e) = (view usageKey op st).step (effect op) e := by
  cases e with
  | exec id => exact congrArg Prod.fst (view_exec usageKey op st id)
  | expire id => exact Memo.ext rfl (update_dedup usageKey op st.dedup id none)

theorem view_run (st : UsageStore) (es : List (Event UUID)) :
    view usageKey op (run usageKey op st es) = (view usageKey op st).run (effect op) es := by
  induction es generalizing st with
  | nil => rfl
  | cons e es ih =>
    rw [run, List.foldl_cons, ← run, ih, view_step]
    rfl

end View

/-! ## Executions, one more event at a time -/

section Accounting
variable {usageKey : String} {op : UUID → ScriptOp}

theorem run_concat (st : UsageStore) (es : List (Event UUID)) (e : Event UUID) :
    run usageKey op st (es ++ [e]) = step usageKey op (run usageKey op st es) e := by
  simp [run, List.foldl_append]

theorem executions_concat_exec (st : UsageStore) (es : List (Event UUID)) (id : UUID) :
    executions usageKey op st (es ++ [.exec id]) = executions usageKey op st es ++
      [⟨id, branch usageKey op (run usageKey op st es) id,
        (exec usageKey op (run usageKey op st es) id).2⟩] := by
  induction es generalizing st with
  | nil => rfl
  | cons e es ih =>
    cases e with
    | exec j => exact congrArg (List.cons _) (ih _)
    | expire j => exact ih _

theorem executions_concat_expire (st : UsageStore) (es : List (Event UUID)) (id : UUID) :
    executions usageKey op st (es ++ [.expire id]) = executions usageKey op st es := by
  induction es generalizing st with
  | nil => rfl
  | cons e es ih =>
    cases e with
    | exec j => exact congrArg (List.cons _) (ih _)
    | expire j => exact ih _

/-- Every execution of a run comes at the end of one of its prefixes. -/
theorem exists_prefix_of_mem_executions {st : UsageStore} {es : List (Event UUID)}
    {x : Execution} (hx : x ∈ executions usageKey op st es) :
    ∃ pre post, es = pre ++ [.exec x.id] ++ post ∧
      x.branch = branch usageKey op (run usageKey op st pre) x.id ∧
      x.reply = (exec usageKey op (run usageKey op st pre) x.id).2 := by
  induction es generalizing st with
  | nil => cases hx
  | cons e es ih =>
    cases e with
    | exec j =>
      rcases List.mem_cons.mp hx with rfl | hx
      · exact ⟨[], es, rfl, rfl, rfl⟩
      · obtain ⟨pre, post, rfl, hb, hr⟩ := ih hx
        exact ⟨.exec j :: pre, post, rfl, hb, hr⟩
    | expire j =>
      obtain ⟨pre, post, rfl, hb, hr⟩ := ih hx
      exact ⟨.expire j :: pre, post, rfl, hb, hr⟩

variable {st₀ : UsageStore} (hfresh : ∀ id, st₀.dedup ((op id).dedupKey usageKey id) = none)
include hfresh

/-- The memory of the scripts after a live run. -/
theorem remembers {es : List (Event UUID)} (hlive : Live es) :
    Remembers (effect op) (st₀.hash usageKey) es (view usageKey op (run usageKey op st₀ es)) := by
  have hview : view usageKey op st₀ = ⟨st₀.hash usageKey, fun _ => none⟩ :=
    Memo.ext rfl (funext hfresh)
  rw [view_run, hview]
  exact remembers_run _ _ hlive

/-- In a live run an execution is a replay exactly when the operation has been
executed before. -/
theorem branch_replayed_iff {es : List (Event UUID)} {id : UUID}
    (hlive : Live (es ++ [.exec id])) :
    branch usageKey op (run usageKey op st₀ es) id = .replayed ↔ Event.exec id ∈ es := by
  have h := remembers hfresh hlive.left
  rw [← mem_firsts]
  constructor
  · intro hb
    -- an operation that was never executed has no remembered reply
    by_contra hid
    have hnone := h.fresh id hid
    simp only [view] at hnone
    rw [branch, hnone] at hb
    simp only [Option.isSome_none, Bool.false_eq_true, if_false] at hb
    split at hb
    · split at hb <;> cases hb
    · cases hb
  · intro hid
    have hknown := h.known id hid hlive.not_expired
    simp only [view] at hknown
    rw [branch, hknown]
    rfl

/-- **Every replay returns the first reply.** -/
theorem reply_eq_of_id_eq {es : List (Event UUID)} (hlive : Live es) {x y : Execution}
    (hx : x ∈ executions usageKey op st₀ es) (hy : y ∈ executions usageKey op st₀ es)
    (hid : x.id = y.id) : x.reply = y.reply := by
  have hview : view usageKey op st₀ = ⟨st₀.hash usageKey, fun _ => none⟩ :=
    Memo.ext rfl (funext hfresh)
  have key : ∀ z ∈ executions usageKey op st₀ es,
      z.reply = seqReply (effect op) (st₀.hash usageKey) (firsts es) z.id := by
    intro z hz
    obtain ⟨pre, post, rfl, -, hr⟩ := exists_prefix_of_mem_executions hz
    have hl : Live (pre ++ [.exec z.id]) := hlive.left
    obtain ⟨l, hl'⟩ := firsts_append (pre ++ [.exec z.id]) post
    have hmem : z.id ∈ firsts (pre ++ [.exec z.id]) :=
      (mem_firsts _ _).mpr (List.mem_append_right _ (List.mem_singleton.mpr rfl))
    rw [hr, hl', seqReply_append _ _ l hmem, ← exec_reply _ _ hl, ← hview, ← view_run]
    exact congrArg Prod.snd (view_exec usageKey op (run usageKey op st₀ pre) z.id)
  rw [key x hx, key y hy, hid]

end Accounting

/-! ## What the counters count -/

section Counters
variable {usageKey : String} {op : UUID → ScriptOp}

/-- What an execution adds to a field, by its branch. -/
def change (op : UUID → ScriptOp) (b : Branch) (id : UUID) (field : UsageCategory) : Int :=
  if (op id).field = field then
    match b with
    | .accepted => (op id).count
    | .rolledBack => -(op id).count
    | _ => 0
  else 0

/-- **One execution** adds to the fields exactly what its branch says. -/
theorem value_exec (st : UsageStore) (id : UUID) (f : UsageCategory) :
    (exec usageKey op st id).1.value usageKey f =
      st.value usageKey f + change op (branch usageKey op st id) id f := by
  cases hop : op id with
  | checkAndIncrement c n limit =>
    simp only [exec, branch, change, hop, ScriptOp.dedupKey, ScriptOp.field, ScriptOp.count]
    cases hd : st.dedup (retryKey usageKey id) with
    | some r => simp [checkAndIncrementLua, hd]
    | none =>
      rw [checkAndIncrementLua_fresh hd]
      by_cases hlim : limit ≥ 0 ∧ st.value usageKey c + n > limit
      · simp only [hlim, and_self, if_true, UsageStore.value_setDedup, UsageStore.value_hset,
          true_and, Option.isSome_none, Bool.false_eq_true, if_false, ite_self, add_zero]
        split <;> simp_all
      · simp only [hlim, if_false, UsageStore.value_setDedup, UsageStore.value_hset,
          true_and, Option.isSome_none, Bool.false_eq_true, eq_comm]
        split <;> simp_all
  | rollback c n =>
    simp only [exec, branch, change, hop, ScriptOp.dedupKey, ScriptOp.field, ScriptOp.count]
    cases hd : st.dedup (rollbackRetryKey usageKey id) with
    | some r => simp [rollbackIncrementLua, hd]
    | none =>
      rw [rollbackIncrementLua_fresh hd]
      simp only [UsageStore.value_setDedup, UsageStore.value_hset, true_and, eq_comm,
        Option.isSome_none, Bool.false_eq_true, if_false]
      split <;> simp_all

/-- **A rejected call leaves every field unchanged.** -/
theorem value_exec_of_rejected {st : UsageStore} {id : UUID}
    (h : branch usageKey op st id = .rejected) (f : UsageCategory) :
    (exec usageKey op st id).1.value usageKey f = st.value usageKey f := by
  rw [value_exec, h]
  simp [change]

@[simp] theorem value_step_expire (st : UsageStore) (id : UUID) (f : UsageCategory) :
    (step usageKey op st (.expire id)).value usageKey f = st.value usageKey f := rfl

theorem distinct_concat (b : Branch) (f : UsageCategory) (xs : List Execution) (x : Execution) :
    distinct op b f (xs ++ [x]) =
      if x.branch = b ∧ (op x.id).field = f then insert x.id (distinct op b f xs)
      else distinct op b f xs := by
  unfold distinct
  rw [List.filter_append, List.map_append, List.toFinset_append]
  split
  · rename_i h
    rw [List.filter_cons_of_pos (by simpa using h)]
    simp [Finset.union_comm]
  · rename_i h
    rw [List.filter_cons_of_neg (by simpa using h)]
    simp

/-- Only operations that were executed are counted. -/
theorem exec_mem_of_mem_distinct {st : UsageStore} {es : List (Event UUID)} {b : Branch}
    {f : UsageCategory} {id : UUID}
    (h : id ∈ distinct op b f (executions usageKey op st es)) : Event.exec id ∈ es := by
  obtain ⟨x, hx, rfl⟩ := List.mem_map.mp (List.mem_toFinset.mp h)
  obtain ⟨pre, post, rfl, -, -⟩ := exists_prefix_of_mem_executions (List.mem_filter.mp hx).1
  simp

/-- The balance of a field over a list of executions. -/
def balance (op : UUID → ScriptOp) (f : UsageCategory) (xs : List Execution) : Int :=
  ∑ id ∈ distinct op .accepted f xs, ((op id).count : Int) -
    ∑ id ∈ distinct op .rolledBack f xs, ((op id).count : Int)

/-- A new operation moves the balance by what its execution adds. -/
theorem balance_concat {f : UsageCategory} {xs : List Execution} {x : Execution}
    (hnew : ∀ b, x.id ∉ distinct op b f xs) :
    balance op f (xs ++ [x]) = balance op f xs + change op x.branch x.id f := by
  unfold balance change
  rw [distinct_concat, distinct_concat]
  by_cases hf : (op x.id).field = f
  · cases hb : x.branch with
    | accepted => simp [hf, Finset.sum_insert (hnew .accepted)]; omega
    | rolledBack => simp [hf, Finset.sum_insert (hnew .rolledBack)]; omega
    | replayed => simp
    | rejected => simp
  · simp [hf]

/-- A replay does not move the balance. -/
theorem balance_concat_replayed {f : UsageCategory} {xs : List Execution} {x : Execution}
    (hb : x.branch = .replayed) : balance op f (xs ++ [x]) = balance op f xs := by
  unfold balance
  rw [distinct_concat, distinct_concat, hb]
  simp

variable {st₀ : UsageStore} (hfresh : ∀ id, st₀.dedup ((op id).dedupKey usageKey id) = none)
include hfresh

/-- **The field is its initial value plus the balance.** -/
theorem value_run {es : List (Event UUID)} (hlive : Live es) (f : UsageCategory) :
    (run usageKey op st₀ es).value usageKey f =
      st₀.value usageKey f + balance op f (executions usageKey op st₀ es) := by
  induction es using List.reverseRecOn with
  | nil => simp [run, executions, balance, distinct]
  | append_singleton es e ih =>
    have ih := ih hlive.left
    rw [run_concat]
    cases e with
    | expire id => rw [value_step_expire, executions_concat_expire, ih]
    | exec id =>
      rw [executions_concat_exec, step, value_exec, ih]
      by_cases hid : Event.exec id ∈ es
      · have hb := (branch_replayed_iff hfresh hlive).mpr hid
        rw [balance_concat_replayed hb, hb]
        simp [change]
      · rw [balance_concat (fun b h => hid (exec_mem_of_mem_distinct h))]
        simp only
        omega

omit hfresh in
/-- **A common hard limit is never passed**: an accepted increment stays within
it, and nothing else raises a field. -/
theorem value_run_le {es : List (Event UUID)} {f : UsageCategory} {limit : Int}
    (hlim : 0 ≤ limit)
    (hall : ∀ id n l, Event.exec id ∈ es → op id = .checkAndIncrement f n l → l = limit)
    (hstart : st₀.value usageKey f ≤ limit) :
    (run usageKey op st₀ es).value usageKey f ≤ limit := by
  induction es using List.reverseRecOn with
  | nil => exact hstart
  | append_singleton es e ih =>
    have ih := ih (fun id n l h => hall id n l (List.mem_append_left _ h))
    rw [run_concat]
    cases e with
    | expire id => exact ih
    | exec id =>
      rw [step, value_exec]
      generalize run usageKey op st₀ es = st at ih ⊢
      unfold change
      split
      · rename_i hf
        cases hb : branch usageKey op st id with
        | accepted =>
          -- the accepting branch has just compared the new value with the limit
          cases hop : op id with
          | checkAndIncrement c n l =>
            simp only [hop, ScriptOp.field] at hf
            subst hf
            have hl := hall id n l (List.mem_append_right _ (List.mem_singleton.mpr rfl)) hop
            simp only [branch, hop] at hb
            split at hb
            · cases hb
            · split at hb
              · cases hb
              · simp only [ScriptOp.count]
                omega
          | rollback c n =>
            simp only [branch, hop] at hb
            split at hb <;> cases hb
        | replayed => simpa using ih
        | rejected => simpa using ih
        | rolledBack => simp only; omega
      · simpa using ih

/-- **Quota counters are linearizable and replay-safe.**  Take any interleaving
of executions of the two scripts on one usage hash, each operation replayed any
number of times while its deduplication key lives.  Every field is its initial
value plus the counts of the distinct accepted increments minus those of the
distinct rollbacks; a rejected call changes no field; every replay returns the
first reply; and under a common hard limit the field never passes it. -/
theorem counters_linearizable {es : List (Event UUID)} (hlive : Live es) :
    (∀ f, (run usageKey op st₀ es).value usageKey f = st₀.value usageKey f +
      ∑ id ∈ distinct op .accepted f (executions usageKey op st₀ es), ((op id).count : Int) -
      ∑ id ∈ distinct op .rolledBack f (executions usageKey op st₀ es), ((op id).count : Int)) ∧
    (∀ pre id, pre ++ [.exec id] <+: es →
      branch usageKey op (run usageKey op st₀ pre) id = .rejected →
      ∀ f, (run usageKey op st₀ (pre ++ [.exec id])).value usageKey f =
        (run usageKey op st₀ pre).value usageKey f) ∧
    (∀ x ∈ executions usageKey op st₀ es, ∀ y ∈ executions usageKey op st₀ es,
      x.id = y.id → x.reply = y.reply) ∧
    (∀ f limit, 0 ≤ limit →
      (∀ id n l, Event.exec id ∈ es → op id = .checkAndIncrement f n l → l = limit) →
      st₀.value usageKey f ≤ limit → (run usageKey op st₀ es).value usageKey f ≤ limit) := by
  refine ⟨fun f => ?_, ?_, ?_, ?_⟩
  · rw [value_run hfresh hlive f]
    simp only [balance]
    omega
  · intro pre id _ hb f
    rw [run_concat]
    exact value_exec_of_rejected hb f
  · intro x hx y hy hid
    exact reply_eq_of_id_eq hfresh hlive hx hy hid
  · intro f limit hlim hall hstart
    exact value_run_le hlim hall hstart

omit hfresh in
/-- Three units accepted, three more rejected at the limit of five, a replay, and
one unit rolled back. -/
theorem counters_linearizable_retry :
    let op : UUID → ScriptOp := fun id =>
      if id = "r" then .rollback .traces 1 else .checkAndIncrement .traces 3 5
    let es : List (Event UUID) := [.exec "a", .exec "b", .exec "a", .exec "r", .expire "a"]
    let st : UsageStore := ⟨fun _ _ => none, fun _ => none⟩
    (run "u" op st es).value "u" .traces = 2 ∧ (run "u" op st es).value "u" .traces ≤ 5 := by
  intro op es st
  have hlive : Live es := by simp [es, Live]
  refine ⟨by decide, ?_⟩
  refine (@counters_linearizable "u" op st (fun _ => rfl) es hlive).2.2.2 .traces 5
    (by decide) ?_ (by decide)
  intro id n l _ hop
  simp only [op] at hop
  split at hop <;> cases hop
  rfl

end Counters


end QuotaScripts
end PandaProbe
