import Mathlib.Data.List.TakeWhile
import ResourceQuery.Number.Reading

/-!
# Integers as texts

The decimal text of an integer is read back as the integer, as long as it has few enough digits
to be written at all.

Headlines:
* **`digitGroup_of_isDigit`**: a run of digits `0` to `9` is read digit by digit.
* **`readInteger_toString`**: the text of an integer stands for the integer.
-/

namespace ResourceQuery.Number

open ResourceQuery.Text

attribute [local instance (2000)] instPowNat

theorem toNat_of_isDigit {c : Char} (h : c.isDigit = true) : 48 ≤ c.toNat ∧ c.toNat ≤ 57 := by
  simp only [Char.isDigit, Bool.and_eq_true, decide_eq_true_eq] at h
  exact h

theorem digitValue_of_isDigit {c : Char} (h : c.isDigit = true) :
    digitValue c = some (c.toNat - '0'.toNat) := by
  obtain ⟨hlow, hhigh⟩ := toNat_of_isDigit h
  have hfind : zeros.find? (fun first => first ≤ c.toNat && c.toNat < first + 10) = some 0x30 := by
    rw [zeros, List.find?_cons_of_pos]
    simp only [Bool.and_eq_true, decide_eq_true_eq]
    omega
  rw [digitValue, hfind]
  rfl

theorem ne_of_isDigit {c : Char} (h : c.isDigit = true) {other : Char}
    (hother : other.isDigit = false) : c ≠ other := by
  rintro rfl
  rw [h] at hother
  cases hother

theorem isWhiteSpace_of_isDigit {c : Char} (h : c.isDigit = true) : isWhiteSpace c = false := by
  obtain ⟨hlow, hhigh⟩ := toNat_of_isDigit h
  have hrange : ∀ range ∈ whiteSpaceRanges, range.2 < 48 ∨ 57 < range.1 := by decide
  refine List.any_eq_false.mpr fun range hmem => ?_
  simp only [Bool.and_eq_true, decide_eq_true_eq]
  rcases hrange range hmem with hbelow | habove
  · omega
  · omega

/-- The digits of a run, one by one. -/
theorem moreDigits_of_isDigit {cs : List Char} (h : ∀ c ∈ cs, c.isDigit = true) :
    moreDigits digitValue cs = some (cs.map fun c => c.toNat - '0'.toNat) := by
  induction cs with
  | nil => rfl
  | cons c cs ih =>
    rw [List.forall_mem_cons] at h
    have hne : c ≠ '_' := ne_of_isDigit h.1 (by decide)
    rw [moreDigits, digitValue_of_isDigit h.1, ih h.2]
    · rfl
    · intro d ds heq _
      exact hne heq

theorem digitGroup_of_isDigit {cs : List Char} (hne : cs ≠ []) (h : ∀ c ∈ cs, c.isDigit = true) :
    digitGroup digitValue cs = some (cs.map fun c => c.toNat - '0'.toNat) := by
  cases cs with
  | nil => exact absurd rfl hne
  | cons c cs =>
    rw [List.forall_mem_cons] at h
    rw [digitGroup, digitValue_of_isDigit h.1, moreDigits_of_isDigit h.2]
    rfl

theorem trimWith_eq_self {p : Char → Bool} {cs : List Char} (h : ∀ c ∈ cs, p c = false) :
    trimWith p cs = cs := by
  have hdrop {ds : List Char} (hds : ∀ c ∈ ds, p c = false) : ds.dropWhile p = ds := by
    cases ds with
    | nil => rfl
    | cons c ds => rw [List.dropWhile_cons_of_neg (by simp [hds c List.mem_cons_self])]
  rw [trimWith, hdrop h, hdrop fun c hc => h c (List.mem_reverse.mp hc), List.reverse_reverse]

theorem takeSign_of_isDigit {cs : List Char} (h : ∀ c ∈ cs, c.isDigit = true) :
    takeSign cs = (false, cs) := by
  cases cs with
  | nil => rfl
  | cons c cs =>
    have hdigit := h c List.mem_cons_self
    rw [takeSign]
    · intro ds heq
      cases heq
      exact absurd hdigit (by decide)
    · intro ds heq
      cases heq
      exact absurd hdigit (by decide)

/-- A run of digits that fills the rest of a text. -/
theorem leadingDigits_of_isDigit {cs : List Char} (hne : cs ≠ [])
    (h : ∀ c ∈ cs, c.isDigit = true) :
    leadingDigits cs = (some (cs.map fun c => c.toNat - '0'.toNat), []) := by
  have hclass : ∀ c ∈ cs, isDigitOrUnderscore c = true := by
    intro c hc
    simp [isDigitOrUnderscore, digitValue_of_isDigit (h c hc)]
  rw [leadingDigits, List.takeWhile_eq_self_iff.mpr hclass, List.dropWhile_eq_nil_iff.mpr hclass,
    digitGroup_of_isDigit hne h]

theorem numeral_toDigits (n : Nat) :
    numeral ((Nat.toDigits 10 n).map fun c => c.toNat - '0'.toNat) = n := by
  rw [numeral, List.foldl_map]
  exact Nat.ofDigitChars_ten_toDigits

/-- The text of a natural number with a sign in front. -/
theorem integerOf_toDigits {s : String} {negative : Bool} {n : Nat}
    (hblank : ∀ c ∈ s.toList, isWhiteSpace c = false)
    (hsign : takeSign s.toList = (negative, Nat.toDigits 10 n)) (hn : n < 10 ^ maxDigits) :
    integerOf s = .ok (Binary64.signed negative n) := by
  have hdigits : ∀ c ∈ Nat.toDigits 10 n, c.isDigit = true := fun c hc =>
    Nat.isDigit_of_mem_toDigits (by decide) (by decide) hc
  have hlength : (Nat.toDigits 10 n).length ≤ maxDigits :=
    (Nat.length_toDigits_le_iff (by decide) (by decide)).mpr hn
  rw [integerOf, trimWith_eq_self hblank, hsign]
  simp only [leadingDigits_of_isDigit Nat.toDigits_ne_nil hdigits, List.length_map,
    numeral_toDigits]
  rw [if_neg (by omega)]
  rfl

/-- The characters of the text of an integer. -/
theorem toList_toString (i : Int) :
    (toString i).toList = (if i < 0 then ['-'] else []) ++ Nat.toDigits 10 i.natAbs := by
  rw [Int.toString_eq_repr, Int.repr_eq_if]
  by_cases hi : 0 ≤ i
  · have hnat : i.toNat = i.natAbs := by omega
    rw [if_pos hi, if_neg (by omega), Nat.toList_repr, hnat, List.nil_append]
  · have hnat : (-i).toNat = i.natAbs := by omega
    rw [if_neg hi, if_pos (by omega), String.toList_append, Nat.toList_repr, hnat]
    rfl

/-- No character of it is white space. -/
theorem isWhiteSpace_of_mem_toString {i : Int} {c : Char} (h : c ∈ (toString i).toList) :
    isWhiteSpace c = false := by
  rw [toList_toString, List.mem_append] at h
  rcases h with h | h
  · split at h
    · rw [List.mem_singleton.mp h]
      decide
    · cases h
  · exact isWhiteSpace_of_isDigit (Nat.isDigit_of_mem_toDigits (by decide) (by decide) h)

/-- **The text of an integer stands for the integer.** -/
theorem readInteger_toString {i : Int} (h : isWritable i = true) :
    readInteger (toString i) = some i := by
  have hbound : i.natAbs < 10 ^ maxDigits := by simpa [isWritable] using h
  have hsign : takeSign (toString i).toList = (decide (i < 0), Nat.toDigits 10 i.natAbs) := by
    rw [toList_toString]
    by_cases hi : i < 0
    · rw [if_pos hi, List.singleton_append, takeSign, decide_eq_true hi]
    · rw [if_neg hi, List.nil_append, decide_eq_false hi, takeSign_of_isDigit fun c hc =>
        Nat.isDigit_of_mem_toDigits (by decide) (by decide) hc]
  rw [readInteger, integerOf_toDigits (fun c => isWhiteSpace_of_mem_toString) hsign hbound,
    Binary64.signed_natAbs]
  rfl

end ResourceQuery.Number
