import Mathlib.Data.List.DropRight
import Mathlib.Data.List.Infix

/-! # Texts

Lists of characters: trimming both ends, cutting at the first occurrence of an element and at the
last occurrence of a word, replacing an element by a word, and SQL's `LIKE`.  `strip` is the one
of Python.  A pattern of `LIKE` is read into
tokens once (`readPattern`); then concatenated patterns match concatenated texts
(`matches_append`).
-/
namespace Text
variable {α : Type*}

/-! ## Trimming -/

/-- Drop what satisfies `p` from both ends. -/
def trim (p : α → Bool) (l : List α) : List α := (l.dropWhile p).rdropWhile p

variable {p : α → Bool} {l : List α}

@[simp] theorem trim_nil : trim p [] = [] := rfl

theorem trim_append_left {ws : List α} (h : ∀ x ∈ ws, p x) : trim p (ws ++ l) = trim p l := by
  rw [trim, List.dropWhile_append_of_pos h, trim]

theorem rdropWhile_append_right {ws : List α} (h : ∀ x ∈ ws, p x) :
    (l ++ ws).rdropWhile p = l.rdropWhile p := by
  induction ws using List.reverseRecOn with
  | nil => rw [List.append_nil]
  | append_singleton ws x ih =>
    rw [← List.append_assoc, List.rdropWhile_concat_pos _ _ _ (h x (by simp))]
    exact ih fun y hy => h y (List.mem_append_left _ hy)

theorem trim_append_right {ws : List α} (h : ∀ x ∈ ws, p x) : trim p (l ++ ws) = trim p l := by
  unfold trim
  rw [List.dropWhile_append]
  split
  next hl =>
    rw [List.isEmpty_iff] at hl
    rw [hl, List.dropWhile_eq_nil_iff.mpr h]
  · exact rdropWhile_append_right h

theorem dropWhile_eq_self (h : ∀ x ∈ l.head?, p x = false) : l.dropWhile p = l := by
  cases l with
  | nil => rfl
  | cons x l => exact List.dropWhile_cons_of_neg (by rw [h x rfl]; exact Bool.false_ne_true)

/-- A text that neither begins nor ends with what is trimmed. -/
theorem trim_eq_self (hhead : ∀ x ∈ l.head?, p x = false) (hlast : ∀ x ∈ l.getLast?, p x = false) :
    trim p l = l := by
  rw [trim, dropWhile_eq_self hhead, List.rdropWhile_eq_self_iff]
  intro hl
  rw [hlast _ (List.getLast?_eq_some_getLast hl)]
  exact Bool.false_ne_true

/-- A text between two copies of a word with nothing to trim. -/
theorem trim_between {word : List α} (hword : word ≠ []) (h : ∀ x ∈ word, p x = false)
    (l : List α) : trim p (word ++ l ++ word) = word ++ l ++ word := by
  refine trim_eq_self (fun x hx => h x ?_) fun x hx => h x ?_
  · rw [List.append_assoc, List.head?_append_of_ne_nil _ hword] at hx
    exact List.mem_of_mem_head? hx
  · rw [List.getLast?_append_of_ne_nil _ hword] at hx
    exact List.mem_of_mem_getLast? hx

theorem head?_dropWhile (x : α) (h : x ∈ (l.dropWhile p).head?) : p x = false := by
  have hnot := List.head?_dropWhile_not p l
  rw [h] at hnot
  exact hnot

/-- What is left does not begin with what is trimmed. -/
theorem head?_trim (x : α) (h : x ∈ (trim p l).head?) : p x = false := by
  obtain ⟨rest, hrest⟩ := List.rdropWhile_prefix p (l.dropWhile p)
  refine head?_dropWhile (l := l) x ?_
  rw [← hrest]
  exact List.mem_head?_append_of_mem_head? h

/-- Nor does it end with it. -/
theorem getLast?_trim (x : α) (h : x ∈ (trim p l).getLast?) : p x = false := by
  obtain ⟨hne, rfl⟩ := List.mem_getLast?_eq_getLast h
  exact Bool.eq_false_iff.mpr (List.rdropWhile_last_not p _ hne)

@[simp] theorem trim_trim : trim p (trim p l) = trim p l := by
  rw [trim, dropWhile_eq_self fun x hx => head?_trim x hx]
  exact List.rdropWhile_idempotent p _

/-- What Python takes for white space. -/
def isSpace (c : Char) : Bool :=
  let n := c.toNat
  (0x9 ≤ n && n ≤ 0xD) || (0x1C ≤ n && n ≤ 0x20) || n = 0x85 || n = 0xA0 || n = 0x1680 ||
    (0x2000 ≤ n && n ≤ 0x200A) || n = 0x2028 || n = 0x2029 || n = 0x202F || n = 0x205F ||
    n = 0x3000

/-- `str.strip`. -/
def strip (s : String) : String := String.ofList (trim isSpace s.toList)

@[simp] theorem toList_strip (s : String) : (strip s).toList = trim isSpace s.toList :=
  String.toList_ofList

@[simp] theorem strip_strip (s : String) : strip (strip s) = strip s := by
  rw [strip, toList_strip, trim_trim, strip]

/-! ## Cutting -/

/-- What follows the first `x`, if there is one. -/
def afterFirst [DecidableEq α] (x : α) : List α → Option (List α)
  | [] => none
  | y :: l => if y = x then some l else afterFirst x l

/-- What precedes the last occurrence of a word, if there is one. -/
def beforeLast [DecidableEq α] (word : List α) : List α → Option (List α)
  | [] => if word = [] then some [] else none
  | x :: l =>
    match beforeLast word l with
    | some before => some (x :: before)
    | none => if word <+: x :: l then some [] else none

theorem afterFirst_append [DecidableEq α] {x : α} {before after : List α} (h : x ∉ before) :
    afterFirst x (before ++ x :: after) = some after := by
  induction before with
  | nil => exact if_pos rfl
  | cons y l ih =>
    rw [List.mem_cons, not_or] at h
    rw [List.cons_append, afterFirst, if_neg fun he => h.1 he.symm]
    exact ih h.2

theorem beforeLast_of_length_lt [DecidableEq α] {word : List α} (h : l.length < word.length) :
    beforeLast word l = none := by
  induction l with
  | nil => exact if_neg fun he => by rw [he] at h; exact Nat.lt_irrefl 0 h
  | cons x l ih =>
    rw [beforeLast, ih (Nat.lt_of_succ_lt h)]
    exact if_neg fun hpre => Nat.not_le_of_lt h hpre.length_le

/-- **A text that ends with the word is cut there.** -/
theorem beforeLast_append [DecidableEq α] {word : List α} (hword : word ≠ []) (l : List α) :
    beforeLast word (l ++ word) = some l := by
  induction l with
  | nil =>
    cases word with
    | nil => exact absurd rfl hword
    | cons x w =>
      -- a proper end of the word is too short to hold it
      have hshort : beforeLast (x :: w) w = none := beforeLast_of_length_lt (Nat.lt_succ_self _)
      rw [List.nil_append, beforeLast, hshort]
      exact if_pos (List.prefix_refl _)
  | cons x l ih => rw [List.cons_append, beforeLast, ih]

/-! ## Replacing -/

/-- Replace an element by a word wherever it stands. -/
def replace [DecidableEq α] (old : α) (new : List α) (l : List α) : List α :=
  l.flatMap (fun x => if x = old then new else [x])

/-! ## `LIKE` -/

/-- What a pattern is made of: a character that stands for itself, `_` and `%`. -/
inductive PatternToken (α : Type*)
  | literal (x : α)
  | anyOne
  | anyMany
  deriving DecidableEq

section
variable [DecidableEq α] (escape many one : α)

/-- The token of a character that is not escaped. -/
def plainToken (x : α) : PatternToken α :=
  if x = many then .anyMany else if x = one then .anyOne else .literal x

/-- Read a pattern; one that ends with the escape character is malformed. -/
def readPattern : List α → Option (List (PatternToken α))
  | [] => some []
  | x :: rest =>
    if x = escape then
      match rest with
      | [] => none
      | y :: rest => (readPattern rest).map (.literal y :: ·)
    else (readPattern rest).map (plainToken many one x :: ·)

/-- The text matches the tokens. -/
def tokensMatch : List (PatternToken α) → List α → Bool
  | [], t => t.isEmpty
  | .literal x :: tokens, y :: t => x = y && tokensMatch tokens t
  | .anyOne :: tokens, _ :: t => tokensMatch tokens t
  | .anyMany :: tokens, t => t.tails.any (tokensMatch tokens)
  | _ :: _, [] => false

/-- `text LIKE pattern`, `none` for a malformed pattern. -/
def like (pattern text : List α) : Option Bool :=
  (readPattern escape many one pattern).map (fun tokens => tokensMatch tokens text)

/-- A character as a pattern that it alone matches. -/
def escapeWord (x : α) : List α :=
  if x = escape ∨ x = many ∨ x = one then [escape, x] else [x]

/-- The words that a token stands for. -/
def covers : PatternToken α → List α → Prop
  | .literal x, w => w = [x]
  | .anyOne, w => ∃ y, w = [y]
  | .anyMany, _ => True

theorem tokensMatch_anyMany {tokens : List (PatternToken α)} {t : List α} :
    tokensMatch (.anyMany :: tokens) t = true ↔ ∃ a b, t = a ++ b ∧ tokensMatch tokens b = true := by
  simp only [tokensMatch, List.any_eq_true, List.mem_tails]
  constructor
  · rintro ⟨b, ⟨a, rfl⟩, h⟩
    exact ⟨a, b, rfl, h⟩
  · rintro ⟨a, b, rfl, h⟩
    exact ⟨b, ⟨a, rfl⟩, h⟩

/-- A token takes one of its words from the front of the text. -/
theorem tokensMatch_cons {token : PatternToken α} {tokens : List (PatternToken α)} {t : List α} :
    tokensMatch (token :: tokens) t = true ↔
      ∃ w u, t = w ++ u ∧ covers token w ∧ tokensMatch tokens u = true := by
  cases token with
  | literal x =>
    cases t with
    | nil => simp [tokensMatch, covers]
    | cons y t =>
      rw [tokensMatch, Bool.and_eq_true, decide_eq_true_eq]
      constructor
      · rintro ⟨rfl, h⟩
        exact ⟨[x], t, rfl, rfl, h⟩
      · rintro ⟨_, u, hsplit, rfl, h⟩
        obtain ⟨rfl, rfl⟩ := List.cons.inj hsplit
        exact ⟨rfl, h⟩
  | anyOne =>
    cases t with
    | nil => simp [tokensMatch, covers]
    | cons y t =>
      constructor
      · exact fun h => ⟨[y], t, rfl, ⟨y, rfl⟩, h⟩
      · rintro ⟨_, u, hsplit, ⟨z, rfl⟩, h⟩
        obtain ⟨-, rfl⟩ := List.cons.inj hsplit
        exact h
  | anyMany =>
    rw [tokensMatch_anyMany]
    simp only [covers, true_and]

/-- **Concatenated tokens match concatenated texts.** -/
theorem tokensMatch_append {tokens tokens' : List (PatternToken α)} {t : List α} :
    tokensMatch (tokens ++ tokens') t = true ↔
      ∃ a b, t = a ++ b ∧ tokensMatch tokens a = true ∧ tokensMatch tokens' b = true := by
  induction tokens generalizing t with
  | nil =>
    constructor
    · exact fun h => ⟨[], t, rfl, rfl, h⟩
    · rintro ⟨a, b, rfl, ha, hb⟩
      obtain rfl : a = [] := List.isEmpty_iff.mp ha
      exact hb
  | cons token tokens ih =>
    simp only [List.cons_append, tokensMatch_cons, ih]
    constructor
    · rintro ⟨w, _, rfl, hw, a, b, rfl, ha, hb⟩
      exact ⟨w ++ a, b, by rw [List.append_assoc], ⟨w, a, rfl, hw, ha⟩, hb⟩
    · rintro ⟨_, b, rfl, ⟨w, a, rfl, hw, ha⟩, hb⟩
      exact ⟨w, a ++ b, by rw [List.append_assoc], hw, a, b, rfl, ha, hb⟩

theorem tokensMatch_literals {q t : List α} :
    tokensMatch (q.map .literal) t = true ↔ t = q := by
  induction q generalizing t with
  | nil => exact List.isEmpty_iff
  | cons x q ih =>
    cases t with
    | nil => simp [tokensMatch]
    | cons y t =>
      rw [List.map_cons, tokensMatch, Bool.and_eq_true, decide_eq_true_eq, ih, List.cons.injEq,
        eq_comm (a := x)]

variable {escape many one}

theorem readPattern_escape (y : α) (rest : List α) :
    readPattern escape many one (escape :: y :: rest) =
      (readPattern escape many one rest).map (.literal y :: ·) := by
  rw [readPattern.eq_def]
  exact if_pos rfl

theorem readPattern_plain {x : α} (hx : x ≠ escape) (rest : List α) :
    readPattern escape many one (x :: rest) =
      (readPattern escape many one rest).map (plainToken many one x :: ·) := by
  rw [readPattern.eq_def]
  exact if_neg hx

/-- **An escaped text is read as itself.** -/
theorem readPattern_escaped (q rest : List α) :
    readPattern escape many one (q.flatMap (escapeWord escape many one) ++ rest) =
      (readPattern escape many one rest).map (q.map .literal ++ ·) := by
  induction q with
  | nil => simp
  | cons x q ih =>
    rw [List.flatMap_cons, List.append_assoc]
    by_cases hx : x = escape ∨ x = many ∨ x = one
    · rw [escapeWord, if_pos hx, List.cons_append, List.cons_append, List.nil_append,
        readPattern_escape, ih, Option.map_map]
      rfl
    · obtain ⟨hescape, hmany, hone⟩ : x ≠ escape ∧ x ≠ many ∧ x ≠ one := by
        simpa only [not_or] using hx
      have hplain : plainToken many one x = .literal x := by
        rw [plainToken, if_neg hmany, if_neg hone]
      rw [escapeWord, if_neg hx, List.cons_append, List.nil_append, readPattern_plain hescape, ih,
        Option.map_map, hplain]
      rfl

/-- **Between two `%`, an escaped text matches where it occurs.** -/
theorem like_escaped (hmany : many ≠ escape) (q t : List α) :
    like escape many one (many :: (q.flatMap (escapeWord escape many one) ++ [many])) t =
      some true ↔ q <:+: t := by
  have hread : readPattern escape many one
      (many :: (q.flatMap (escapeWord escape many one) ++ [many])) =
        some (.anyMany :: (q.map .literal ++ [.anyMany])) := by
    have htoken : plainToken many one many = .anyMany := if_pos rfl
    rw [readPattern_plain hmany, readPattern_escaped, readPattern_plain hmany, htoken]
    rfl
  have hall : ∀ b : List α, tokensMatch [.anyMany] b = true := fun b =>
    tokensMatch_anyMany.mpr ⟨b, [], by rw [List.append_nil], rfl⟩
  rw [like, hread, Option.map_some, Option.some.injEq, tokensMatch_anyMany]
  simp only [tokensMatch_append, tokensMatch_literals]
  constructor
  · rintro ⟨a, b, rfl, c, d, rfl, rfl, -⟩
    exact ⟨a, d, by rw [List.append_assoc]⟩
  · rintro ⟨a, b, rfl⟩
    exact ⟨a, q ++ b, by rw [List.append_assoc], q, b, rfl, rfl, hall b⟩

end

end Text
