import PandaProbe.IdentityService
import PandaProbe.Text

/-! # The grammar of resource names

`validate_resource_name` strips a name, looks at its length, and then asks `isalnum` about a name
of one character and a regular expression about a longer one.  The expression knows ASCII only,
`isalnum` all of Unicode: `é` is a valid name, `éa` is not.

`name_law_iff` is the main result: this is the only way in which the function departs from its
grammar.
-/
namespace PandaProbe
open IdentityService Text

/-- The characters of a name. -/
def nameChar (c : Char) : Bool := c.isAlphanum || [' ', '-', '_', '.', '\''].contains c

/-- **The grammar**: 1 to 255 characters, all of them letters, digits, spaces, hyphens,
underscores, dots or apostrophes of ASCII, with a letter or digit at both ends. -/
structure ResourceName (name : String) : Prop where
  nonempty : 1 ≤ name.length
  bounded : name.length ≤ 255
  chars : ∀ c ∈ name.toList, nameChar c = true
  first : ∀ c ∈ name.toList.head?, c.isAlphanum = true
  last : ∀ c ∈ name.toList.getLast?, c.isAlphanum = true

/-! ## The regular expression -/

/-- What the expression allows at both ends of a name, and between them. -/
def isSafeName (name : List Char) : Bool :=
  name.head?.any Char.isAlphanum && name.getLast?.any Char.isAlphanum &&
    name.all (fun c => c.isAlphanum || " _.'-".toList.contains c)

/-- The class of the expression. -/
theorem nameChar_eq (c : Char) : (c.isAlphanum || " _.'-".toList.contains c) = nameChar c := by
  rw [nameChar, Bool.eq_iff_iff]
  simp
  tauto

theorem nameChar_of_isAlphanum {c : Char} (h : c.isAlphanum = true) : nameChar c = true := by
  rw [nameChar, h, Bool.true_or]

theorem isSafeName_iff {l : List Char} (hl : l ≠ []) : isSafeName l = true ↔
    (∀ c ∈ l.head?, c.isAlphanum = true) ∧ (∀ c ∈ l.getLast?, c.isAlphanum = true) ∧
      ∀ c ∈ l, nameChar c = true := by
  obtain ⟨first, hfirst⟩ := Option.isSome_iff_exists.mp (List.isSome_head?.mpr hl)
  have hlast := List.getLast?_eq_some_getLast hl
  simp only [isSafeName, hfirst, hlast, Option.any_some, Bool.and_eq_true, List.all_eq_true,
    nameChar_eq, Option.mem_def, Option.some.injEq, forall_eq', and_assoc]

/-- On the names it is asked about, the regular expression is the plain test. -/
theorem safeNameRe_eq {l : List Char} (htwo : 2 ≤ l.length) (hmax : l.length ≤ 255)
    (hend : ∀ c ∈ l.getLast?, c ≠ '\n') : safeNameRe l = isSafeName l := by
  cases l with
  | nil => cases htwo
  | cons first rest =>
    have hclass : ∀ c : Char, (c.isAlphanum || " _.'-".toList.contains c) = nameChar c := nameChar_eq
    rw [Bool.eq_iff_iff, isSafeName_iff (List.cons_ne_nil _ _)]
    simp only [safeNameRe, hclass, Bool.and_eq_true, List.any_eq_true, List.mem_range,
      List.all_eq_true]
    constructor
    · rintro ⟨hfirst, n, -, hmid, hstop⟩
      split at hstop
      next last stop hdrop =>
        simp only [Bool.and_eq_true, Bool.or_eq_true, decide_eq_true_eq] at hstop
        obtain ⟨hlast, hstop⟩ := hstop
        have hrest : rest = rest.take n ++ last :: stop := by rw [← hdrop, List.take_append_drop]
        have hend' : (first :: rest).getLast? = (last :: stop).getLast? := by
          rw [hrest, ← List.cons_append, List.getLast?_append_of_ne_nil _ (List.cons_ne_nil _ _)]
        rcases hstop with rfl | rfl
        · rw [hend']
          refine ⟨by simpa using hfirst, by simpa using hlast, ?_⟩
          rw [hrest]
          intro c hc
          rcases List.mem_cons.mp hc with rfl | hc
          · exact nameChar_of_isAlphanum hfirst
          · rcases List.mem_append.mp hc with hc | hc
            · exact hmid c hc
            · rw [List.mem_singleton.mp hc]
              exact nameChar_of_isAlphanum hlast
        -- the name does not end with a newline
        · refine absurd rfl (hend '\n' ?_)
          rw [hend']
          rfl
      · cases hstop
    · rintro ⟨hfirst, hlast, hchars⟩
      have hrest : rest ≠ [] := by
        rintro rfl
        simp at htwo
      have hlength : rest.length + 1 ≤ 255 := hmax
      refine ⟨hfirst first rfl, rest.length - 1, by omega, fun c hc => ?_, ?_⟩
      · exact hchars c (List.mem_cons_of_mem _ (List.mem_of_mem_take hc))
      · rw [List.drop_length_sub_one hrest]
        have hmem : rest.getLast hrest ∈ (first :: rest).getLast? := by
          rw [List.getLast?_cons_of_ne_nil hrest, List.getLast?_eq_some_getLast hrest]
          rfl
        simp [hlast _ hmem]

/-- A name that the regular expression is asked about. -/
theorem safeNameRe_strip {value : String} (htwo : 2 ≤ (strip value).length)
    (hmax : (strip value).length ≤ 255) :
    safeNameRe (strip value).toList = isSafeName (strip value).toList := by
  rw [← String.length_toList] at htwo hmax
  refine safeNameRe_eq htwo hmax fun c hc => ?_
  -- a stripped name does not end with white space
  rintro rfl
  rw [toList_strip] at hc
  exact absurd (getLast?_trim '\n' hc) (by decide +kernel)

/-! ## The function -/

/-- What a stripped name has to pass. -/
def Accepts (isalnum : String → Bool) (name : String) : Prop :=
  name ≠ "" ∧ name.length ≤ 255 ∧
    if name.length = 1 then isalnum name = true else isSafeName name.toList = true

theorem validateResourceName_ok_iff {isalnum : String → Bool} {value label name : String} :
    validateResourceName strip isalnum value label = .ok name ↔
      name = strip value ∧ Accepts isalnum (strip value) := by
  have hre : 2 ≤ (strip value).length → (strip value).length ≤ 255 → _ := safeNameRe_strip
  unfold validateResourceName Accepts
  generalize strip value = stripped at hre ⊢
  dsimp only
  by_cases hempty : stripped = ""
  · simp [hempty]
  · rw [if_neg hempty]
    by_cases hlong : maxNameLen < stripped.length
    · have hnot : ¬ stripped.length ≤ 255 := Nat.not_le_of_lt hlong
      simp [hlong, hnot]
    · have hle : stripped.length ≤ 255 := Nat.le_of_not_lt hlong
      rw [if_neg hlong]
      by_cases hone : stripped.length = 1
      · rw [if_pos hone, if_pos hone]
        cases isalnum stripped <;> simp [hempty, hle, eq_comm]
      · have hpos : stripped.length ≠ 0 := mt String.length_eq_zero_iff.mp hempty
        rw [if_neg hone, if_neg hone, hre (by omega) hle]
        cases isSafeName stripped.toList <;> simp [hempty, hle, eq_comm]

/-- **What the grammar asks of the function**: it succeeds on the names of the grammar, returns
the stripped name, and leaves its own results as they are. -/
structure NameLaw (isalnum : String → Bool) (value label : String) : Prop where
  succeeds : (∃ name, validateResourceName strip isalnum value label = .ok name) ↔
    ResourceName (strip value)
  returns : ∀ name, validateResourceName strip isalnum value label = .ok name →
    name = strip value ∧ validateResourceName strip isalnum name label = .ok name

theorem exists_singleton {name : String} (h : name.length = 1) :
    ∃ c, name = String.singleton c := by
  obtain ⟨c, hc⟩ := List.length_eq_one_iff.mp (String.length_toList.trans h)
  exact ⟨c, String.toList_inj.mp (by simpa using hc)⟩

/-- Letters and digits of ASCII. -/
theorem isAlphanum_lt {c : Char} (h : c.isAlphanum = true) : c.toNat < 128 := by
  simp only [Char.isAlphanum, Char.isAlpha, Char.isUpper, Char.isLower, Char.isDigit,
    Bool.or_eq_true, Bool.and_eq_true, decide_eq_true_eq, UInt32.le_iff_toNat_le] at h
  show c.val.toNat < 128
  rcases h with (h | h) | h
  · exact Nat.lt_of_le_of_lt h.2 (by decide)
  · exact Nat.lt_of_le_of_lt h.2 (by decide)
  · exact Nat.lt_of_le_of_lt h.2 (by decide)

/-- A name of one character. -/
theorem resourceName_singleton {c : Char} :
    ResourceName (String.singleton c) ↔ c.isAlphanum = true := by
  constructor
  · intro h
    exact h.first c (by simp)
  · intro hc
    exact ⟨by simp, by simp, by simpa [nameChar] using .inl hc, by simpa using hc, by simpa using hc⟩

/-- A longer name. -/
theorem resourceName_iff {name : String} (hempty : name ≠ "") :
    ResourceName name ↔ name.length ≤ 255 ∧ isSafeName name.toList = true := by
  have hne : name.toList ≠ [] := by simpa using hempty
  rw [isSafeName_iff hne]
  constructor
  · exact fun h => ⟨h.bounded, h.first, h.last, h.chars⟩
  · rintro ⟨hbounded, hfirst, hlast, hchars⟩
    refine ⟨?_, hbounded, hchars, hfirst, hlast⟩
    rw [← String.length_toList]
    exact List.length_pos_iff.mpr hne

/-- The function succeeds with a stripped name or not at all. -/
theorem exists_ok_iff {isalnum : String → Bool} {value label : String} :
    (∃ name, validateResourceName strip isalnum value label = .ok name) ↔
      Accepts isalnum (strip value) := by
  simp only [validateResourceName_ok_iff, exists_eq_left]

theorem returns_ok {isalnum : String → Bool} {value label name : String}
    (h : validateResourceName strip isalnum value label = .ok name) :
    name = strip value ∧ validateResourceName strip isalnum name label = .ok name := by
  obtain ⟨rfl, haccepts⟩ := validateResourceName_ok_iff.mp h
  refine ⟨rfl, validateResourceName_ok_iff.mpr ?_⟩
  rw [strip_strip]
  exact ⟨rfl, haccepts⟩

/-- **The grammar holds of every value but a single letter or digit beyond ASCII.**  The value
may be any string; `isalnum` is what Python says of ASCII characters, and anything of the
others. -/
theorem name_law_iff {isalnum : String → Bool}
    (hascii : ∀ c : Char, c.toNat < 128 → isalnum (String.singleton c) = c.isAlphanum)
    (value label : String) : NameLaw isalnum value label ↔
      ¬ ∃ c : Char, strip value = String.singleton c ∧ 128 ≤ c.toNat ∧
        isalnum (String.singleton c) = true := by
  have hlaw : NameLaw isalnum value label ↔
      (Accepts isalnum (strip value) ↔ ResourceName (strip value)) :=
    ⟨fun h => exists_ok_iff.symm.trans h.succeeds,
      fun h => ⟨exists_ok_iff.trans h, fun _ => returns_ok⟩⟩
  rw [hlaw]
  generalize strip value = stripped
  by_cases hone : stripped.length = 1
  · obtain ⟨c, rfl⟩ := exists_singleton hone
    have haccepts : Accepts isalnum (String.singleton c) ↔ isalnum (String.singleton c) = true := by
      simp [Accepts]
    rw [haccepts, resourceName_singleton]
    constructor
    · rintro h ⟨d, hd, hbeyond, halnum⟩
      obtain rfl := String.singleton_inj.mp hd
      have hascii := isAlphanum_lt (h.mp halnum)
      omega
    · intro h
      by_cases hc : c.toNat < 128
      · rw [hascii c hc]
      · constructor
        · exact fun halnum => absurd ⟨c, rfl, Nat.le_of_not_lt hc, halnum⟩ h
        · exact fun halnum => absurd (isAlphanum_lt halnum) hc
  · -- the function and the grammar ask the same of longer names
    refine iff_of_true ?_ ?_
    · by_cases hempty : stripped = ""
      · subst hempty
        exact iff_of_false (fun h => h.1 rfl) fun h => by simpa using h.nonempty
      · rw [resourceName_iff hempty, Accepts, if_neg hone]
        exact and_iff_right hempty
    · rintro ⟨c, rfl, -⟩
      exact hone (by simp)

/-- `str.isalnum` on the characters up to `ÿ`. -/
def latinIsalnum (s : String) : Bool :=
  !s.toList.isEmpty && s.toList.all fun c =>
    c.isAlphanum || [0xAA, 0xB2, 0xB3, 0xB5, 0xB9, 0xBA, 0xBC, 0xBD, 0xBE].contains c.toNat ||
      (0xC0 ≤ c.toNat && c.toNat ≤ 0xFF && c.toNat ≠ 0xD7 && c.toNat ≠ 0xF7)

theorem latinIsalnum_ascii (c : Char) (hc : c.toNat < 128) :
    latinIsalnum (String.singleton c) = c.isAlphanum := by
  have hlatin : ∀ n ∈ [0xAA, 0xB2, 0xB3, 0xB5, 0xB9, 0xBA, 0xBC, 0xBD, 0xBE], c.toNat ≠ n := by
    simp only [List.forall_mem_cons, List.not_mem_nil, false_implies, implies_true, and_true]
    omega
  have hnot : [0xAA, 0xB2, 0xB3, 0xB5, 0xB9, 0xBA, 0xBC, 0xBD, 0xBE].contains c.toNat = false := by
    rw [List.contains_eq_mem, decide_eq_false_iff_not]
    exact fun hmem => hlatin _ hmem rfl
  have hsmall : ¬ 0xC0 ≤ c.toNat := by omega
  simp only [latinIsalnum, String.toList_singleton, List.isEmpty_cons, Bool.not_false,
    List.all_cons, List.all_nil, hnot, hsmall, decide_false, Bool.false_and, Bool.or_false,
    Bool.and_true, Bool.true_and]

/-- A name of the grammar, with blanks around it. -/
theorem name_law_iff_blanks : NameLaw latinIsalnum "  ann's agents " "Project name" := by
  refine (name_law_iff latinIsalnum_ascii _ _).mpr ?_
  rintro ⟨c, hc, -⟩
  have hlength : (strip "  ann's agents ").length = 12 := by decide +kernel
  rw [hc, String.length_singleton] at hlength
  cases hlength

/-- `é` is accepted, and is not in the grammar. -/
theorem single_letter_accepted : ¬ ∀ isalnum : String → Bool,
    (∀ c : Char, c.toNat < 128 → isalnum (String.singleton c) = c.isAlphanum) →
      ∀ value label, NameLaw isalnum value label := by
  intro h
  have hlaw := h latinIsalnum latinIsalnum_ascii "é" "Project name"
  have haccepted : validateResourceName strip latinIsalnum "é" "Project name" = .ok "é" := by
    decide +kernel
  have hname : ResourceName (strip "é") := hlaw.succeeds.mp ⟨"é", haccepted⟩
  exact absurd (hname.first 'é' (by decide +kernel)) (by decide +kernel)

end PandaProbe
