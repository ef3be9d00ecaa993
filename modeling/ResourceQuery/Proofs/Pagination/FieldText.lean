import Mathlib.Data.List.Basic
import ResourceQuery.Pagination.Fields
import ResourceQuery.Proofs.Number.IntegerText

/-!
# Texts of page fields

A link holds the fields of a page as texts. The text of a field is read as the field itself: an
integer is written without ornaments, so its text is plain, and a text stands for itself.

Headlines:
* **`plainInteger_of_toDigits`**: the digits of a number, with or without a minus, are plain.
* **`readWhole_toString`**: the text of an integer is read as the integer.
* **`isFieldValue`**: the values that a link repeats as they are read.
* **`blankableField_plain`**: the text of a field is read as the field.
-/

namespace ResourceQuery.Pagination

open Number Text

attribute [local instance (2000)] instPowNat

/-! ## Integers -/

/-- No zero stands in front of a positive number. -/
theorem head?_toDigits_ne_zero {n : Nat} (hn : 0 < n) : (Nat.toDigits 10 n).head? ≠ some '0' := by
  induction n using Nat.strong_induction_on with
  | _ n ih =>
    by_cases hsmall : n < 10
    · rw [Nat.toDigits_of_lt_base hsmall]
      intro heq
      have hchar : n.digitChar = '0' := by simpa using heq
      have hcode := Nat.toNat_digitChar_of_lt_ten hsmall
      rw [hchar] at hcode
      have : '0'.toNat = 48 := rfl
      omega
    · rw [Nat.toDigits_of_base_le (by decide) (by omega),
        List.head?_append_of_ne_nil _ Nat.toDigits_ne_nil]
      exact ih (n / 10) (by omega) (by omega)

theorem isDigit_of_mem_toDigits {n : Nat} : ∀ c ∈ Nat.toDigits 10 n, c.isDigit = true :=
  fun _ hc => Nat.isDigit_of_mem_toDigits (by decide) (by decide) hc

/-- The digits of a number stand for the number. -/
theorem numeral_filterMap_toDigits (n : Nat) :
    numeral ((Nat.toDigits 10 n).filterMap asciiDigitValue) = n := by
  have hdigits : (Nat.toDigits 10 n).filterMap asciiDigitValue =
      (Nat.toDigits 10 n).map fun c => c.toNat - '0'.toNat :=
    List.filterMap_eq_map_iff_forall_eq_some.mpr fun c hc => if_pos (isDigit_of_mem_toDigits c hc)
  rw [hdigits, numeral_toDigits]

/-- **The digits of a number** are an integer without ornaments. -/
theorem plainInteger_of_toDigits {cs : List Char} {negative : Bool} {n : Nat}
    (hminus : plainInteger.takeMinus cs = (negative, Nat.toDigits 10 n))
    (hn : n < 10 ^ maxDigits) : plainInteger cs = .ok (Binary64.signed negative n) := by
  have hall : (Nat.toDigits 10 n).takeWhile Char.isDigit = Nat.toDigits 10 n :=
    List.takeWhile_eq_self_iff.mpr isDigit_of_mem_toDigits
  have hlength : (Nat.toDigits 10 n).length ≤ maxDigits :=
    (Nat.length_toDigits_le_iff (by decide) (by decide)).mpr hn
  unfold plainInteger
  simp only [hminus, hall]
  rcases Nat.eq_zero_or_pos n with rfl | hpos
  · cases negative with
    | true => rfl
    | false => rfl
  · have hne : (Nat.toDigits 10 n).isEmpty = false := by simp [Nat.toDigits_ne_nil]
    rw [if_neg (head?_toDigits_ne_zero hpos), if_neg (by omega), if_neg (by simp [hne]),
      numeral_filterMap_toDigits]

theorem takeMinus_toString (i : Int) :
    plainInteger.takeMinus (toString i).toList = (decide (i < 0), Nat.toDigits 10 i.natAbs) := by
  rw [toList_toString]
  by_cases hi : i < 0
  · rw [if_pos hi, decide_eq_true hi]
    rfl
  · rw [if_neg hi, List.nil_append, decide_eq_false hi, plainInteger.takeMinus]
    intro cs heq
    have hminus := isDigit_of_mem_toDigits '-' (by rw [heq]; exact List.mem_cons_self)
    exact absurd hminus (by decide)

/-- **The text of an integer** is read as the integer. -/
theorem readWhole_toString {i : Int} (h : isWritable i = true) :
    readWhole (toString i) = .ok i := by
  have hbound : i.natAbs < 10 ^ maxDigits := by simpa [isWritable] using h
  have hplain := plainInteger_of_toDigits (takeMinus_toString i) hbound
  rw [Binary64.signed_natAbs] at hplain
  unfold readWhole
  rw [trimWith_eq_self fun c => isWhiteSpace_of_mem_toString]
  simp only [hplain]

/-- The text of an integer is not blank. -/
theorem isBlank_toString (i : Int) : isBlank (toString i) = false := by
  obtain ⟨c, hc⟩ := List.exists_mem_of_ne_nil _ (Nat.toDigits_ne_nil (b := 10) (n := i.natAbs))
  obtain ⟨hlow, hhigh⟩ := toNat_of_isDigit (isDigit_of_mem_toDigits c hc)
  refine List.all_eq_false.mpr ⟨c, ?_, ?_⟩
  · rw [toList_toString]
    exact List.mem_append_right _ hc
  · rw [isBlankChar, isWhiteSpace_of_isDigit (isDigit_of_mem_toDigits c hc)]
    simp only [Bool.or_false, Bool.and_eq_true, decide_eq_true_eq]
    omega

/-! ## Fields -/

/-- Is a value absent, a text, or an integer of few enough digits to be written? -/
def isFieldValue : Value → Bool
  | .null | .str _ => true
  | .int i => isWritable i
  | _ => false

/-- **The text of a field** is read as the field. -/
theorem blankableField_plain {bound : Int} {v : Value} (h : isFieldValue v = true)
    (hne : v ≠ .null) : blankableField bound (.str v.plain) = blankableField bound v := by
  cases v with
  | null => exact absurd rfl hne
  | str s => rfl
  | int i =>
    have hread : integer? (.str (toString i)) = .ok (some i) := by
      rw [integer?, readWhole_toString h]
      rfl
    have hfield : integerField bound (.str (toString i)) = integerField bound (.int i) := by
      unfold integerField
      rw [hread, integer?]
    show (if isBlank (toString i) then _ else integerField bound (.str (toString i))) = _
    rw [isBlank_toString, if_neg (by decide), hfield]
    rfl
  | _ => cases h

end ResourceQuery.Pagination
