import Mathlib.Algebra.Order.Field.Power
import Mathlib.Algebra.Order.Ring.Rat
import ResourceQuery.Number.Arithmetic
import ResourceQuery.Number.Reading
import ResourceQuery.Proofs.Number.RoundedQuotient

/-!
# The range of doubles

Rounding a quotient either gives a double of at most 53 bits whose exponent is not above the
greatest one, or nothing. Every integer up to the greatest double is in range, and so is every
integer that a double is rounded up to.

Headlines:
* **`greatestDouble`**: the greatest double, which is an integer.
* **`scaled_lt_iff`**: the bound of a scaled quotient as a bound of the quotient.
* **`bounds_of_roundQuotient`**, **`bounds_of_div?`**: the significand and the exponent of a rounded
  quotient.
* **`ceilScaled_le_greatestDouble`**: a double rounded up is not above the greatest one.
* **`isSome_nearestInt?`**, **`isWritable_of_natAbs_le`**: an integer up to the greatest double is
  in range and can be written.
-/

namespace ResourceQuery.Number

open Binary64

/-- The greatest double. -/
def greatestDouble : Nat := (2 ^ 53 - 1) * 2 ^ 971

theorem cast_greatestDouble : (greatestDouble : Int) = (2 ^ 53 - 1 : Nat) * 2 ^ 971 := by
  rw [greatestDouble, Nat.cast_mul, Nat.cast_pow, Nat.cast_two]

theorem one_le_greatestDouble : 1 ≤ greatestDouble :=
  Nat.mul_pos (show 0 < 2 ^ 53 - 1 by decide) (Nat.two_pow_pos 971)

/-! ## The bounds of a rounded quotient -/

/-- The bound of a scaled quotient, with the scale on the other side. -/
theorem scaled_lt_iff {num den : Nat} {e : Int} (bound : Nat) :
    (scaled num den e).1 < bound * (scaled num den e).2 ↔ (num : ℚ) < bound * den * 2 ^ e := by
  unfold scaled
  by_cases he : 0 ≤ e
  · obtain ⟨k, rfl⟩ := Int.eq_ofNat_of_zero_le he
    simp only [he, if_true, Int.toNat_natCast, zpow_natCast]
    rw [← Nat.cast_lt (α := ℚ)]
    push_cast
    rw [mul_assoc]
  · obtain ⟨k, hk⟩ : ∃ k : Nat, e = -(k : Int) := ⟨(-e).toNat, by omega⟩
    subst hk
    have hpos : (0 : ℚ) < 2 ^ k := by positivity
    simp only [he, if_false, Int.neg_neg, Int.toNat_natCast, zpow_neg, zpow_natCast]
    rw [← Nat.cast_lt (α := ℚ), ← div_eq_mul_inv, lt_div_iff₀ hpos]
    push_cast
    rfl

/-- The exponent is at least the one guessed from the logarithms, or one less if the quotient is
short at that. -/
theorem le_quotientExponent (num den : Nat) :
    (num.log2 : Int) - den.log2 - 53 ≤ quotientExponent num den ∧
      ((scaled num den (num.log2 - den.log2 - 52)).1 <
          2 ^ 52 * (scaled num den (num.log2 - den.log2 - 52)).2 ∨
        (num.log2 : Int) - den.log2 - 52 ≤ quotientExponent num den) := by
  unfold quotientExponent
  simp only
  split
  · exact ⟨by omega, Or.inl ‹_›⟩
  · exact ⟨by omega, Or.inr (by omega)⟩

/-- At its exponent a quotient has at most 53 bits before the point. -/
theorem scaled_quotientExponent_lt (num : Nat) {den : Nat} (hden : 0 < den) :
    (scaled num den (quotientExponent num den)).1 <
      2 ^ 53 * (scaled num den (quotientExponent num den)).2 := by
  have hnum₂ : (num : ℚ) < 2 ^ (num.log2 + 1 : Int) := by
    exact_mod_cast Nat.lt_log2_self (n := num)
  have hden₁ : (2 : ℚ) ^ (den.log2 : Int) ≤ den := by
    exact_mod_cast Nat.log2_self_le hden.ne'
  have hdenpos : (0 : ℚ) < den := by exact_mod_cast hden
  obtain ⟨hlow, hguess⟩ := le_quotientExponent num den
  rw [scaled_lt_iff]
  rcases hguess with hshort | hguess
  · rw [scaled_lt_iff] at hshort
    calc (num : ℚ) < (2 ^ 52 : Nat) * den * 2 ^ ((num.log2 : Int) - den.log2 - 52) := hshort
      _ = 2 ^ 53 * den * 2 ^ ((num.log2 : Int) - den.log2 - 53) := by
        rw [show (num.log2 : Int) - den.log2 - 52 = (num.log2 : Int) - den.log2 - 53 + 1 by ring,
          zpow_add_one₀ (by norm_num)]
        push_cast
        ring
      _ ≤ (2 ^ 53 : Nat) * den * 2 ^ quotientExponent num den := by
        rw [Nat.cast_pow, Nat.cast_two]
        gcongr
        exact one_le_two (α := ℚ)
  · calc (num : ℚ) < 2 ^ (num.log2 + 1 : Int) := hnum₂
      _ = 2 ^ 53 * 2 ^ (den.log2 : Int) * 2 ^ ((num.log2 : Int) - den.log2 - 52) := by
        rw [← zpow_natCast, ← zpow_add₀ (by norm_num), ← zpow_add₀ (by norm_num)]
        congr 1
        push_cast
        ring
      _ ≤ (2 ^ 53 : Nat) * den * 2 ^ quotientExponent num den := by
        rw [Nat.cast_pow, Nat.cast_two]
        gcongr
        exact one_le_two (α := ℚ)

theorem divHalfEven_zero (n : Nat) : divHalfEven n 0 ≤ 1 := by
  simp only [divHalfEven, Nat.div_zero, Nat.mod_zero]
  split
  · omega
  · split <;> omega

theorem scaled_snd_pos {num den : Nat} (hden : 0 < den) (e : Int) : 0 < (scaled num den e).2 := by
  unfold scaled
  split
  · positivity
  · exact hden

theorem scaled_snd_zero (num : Nat) (e : Int) : (scaled num 0 e).2 = 0 := by
  unfold scaled
  split
  · exact Nat.zero_mul _
  · rfl

/-- The significand before a carry. -/
theorem divHalfEven_scaled_le (num den : Nat) :
    divHalfEven (scaled num den (quotientExponent num den)).1
      (scaled num den (quotientExponent num den)).2 ≤ 2 ^ 53 := by
  rcases Nat.eq_zero_or_pos den with rfl | hden
  · rw [scaled_snd_zero]
    exact (divHalfEven_zero _).trans (by decide)
  · exact divHalfEven_le (scaled_snd_pos hden _) (scaled_quotientExponent_lt num hden).le

/-- **The bounds of a rounded quotient.** -/
theorem bounds_of_roundQuotient {num den m : Nat} {e : Int}
    (h : roundQuotient num den = some (m, e)) : m < 2 ^ 53 ∧ e ≤ greatestExponent := by
  have hround := divHalfEven_scaled_le num den
  unfold roundQuotient at h
  simp only at h
  generalize divHalfEven (scaled num den (quotientExponent num den)).1
      (scaled num den (quotientExponent num den)).2 = rounded at h hround
  split at h
  · cases h
    exact ⟨by decide, by decide⟩
  · by_cases hcarry : rounded = 2 ^ 53
    · simp only [hcarry, if_true] at h
      rw [if_neg (by decide)] at h
      split at h
      · next hrange =>
        cases h
        exact ⟨by decide, hrange⟩
      · cases h
    · simp only [hcarry, if_false] at h
      split at h
      · cases h
        exact ⟨by decide, by decide⟩
      · split at h
        · next hrange =>
          cases h
          exact ⟨by omega, hrange⟩
        · cases h

/-! ## Integers in range -/

/-- **A double rounded up** is not above the greatest one. -/
theorem ceilScaled_le_greatestDouble {m : Nat} {e : Int} (hm : m < 2 ^ 53)
    (he : e ≤ greatestExponent) (negative : Bool) :
    ceilScaled (signed negative m) e ≤ greatestDouble := by
  have hsigned : signed negative m ≤ (2 ^ 53 - 1 : Nat) := by
    unfold signed
    split <;> omega
  unfold ceilScaled
  split
  · next h =>
    rw [greatestExponent] at he
    have hpow : (2 : Int) ^ e.toNat ≤ 2 ^ 971 :=
      pow_le_pow_right₀ (by decide) (by omega)
    calc signed negative m * 2 ^ e.toNat ≤ (2 ^ 53 - 1 : Nat) * 2 ^ e.toNat :=
          mul_le_mul_of_nonneg_right hsigned (by positivity)
      _ ≤ (2 ^ 53 - 1 : Nat) * 2 ^ 971 := mul_le_mul_of_nonneg_left hpow (by positivity)
      _ = greatestDouble := cast_greatestDouble.symm
  · have hpos : (0 : Int) < 2 ^ (-e).toNat := by positivity
    have hfloor : -((2 ^ 53 - 1 : Nat) : Int) ≤ (-signed negative m).fdiv (2 ^ (-e).toNat) := by
      rw [Int.fdiv_eq_ediv_of_nonneg _ hpos.le, Int.le_ediv_iff_mul_le hpos]
      have hone : (1 : Int) ≤ 2 ^ (-e).toNat := by omega
      nlinarith
    have hsmall : ((2 ^ 53 - 1 : Nat) : Int) ≤ greatestDouble := by
      unfold greatestDouble
      exact_mod_cast Nat.le_mul_of_pos_right _ (by positivity)
    omega

/-- A count of pages that is in range is not above the greatest double. -/
theorem ceilQuotient_le_greatestDouble {count pages : Int} {size : Nat}
    (h : ceilQuotient count size = some pages) : pages ≤ greatestDouble := by
  obtain ⟨⟨m, e⟩, hround, rfl⟩ := Option.map_eq_some_iff.mp h
  obtain ⟨hm, he⟩ := bounds_of_roundQuotient hround
  exact ceilScaled_le_greatestDouble hm he _

/-- The quotient of two doubles has bounds like that of two integers. -/
theorem bounds_of_div? {x y : Binary64} {negative : Bool} {m : Nat} {e : Int}
    (h : x.div? y = some (.finite negative m e)) : m < 2 ^ 53 ∧ e ≤ greatestExponent := by
  cases x with
  | nan => cases h
  | infinite a => cases y <;> cases h
  | finite a n d =>
    cases y with
    | nan => cases h
    | infinite b =>
      cases h
      exact ⟨by decide, by decide⟩
    | finite b k f =>
      simp only [div?] at h
      split at h
      · cases h
      · unfold ofQuotient at h
        split at h
        · next hround =>
          cases h
          exact bounds_of_roundQuotient hround
        · cases h

/-- A quotient of two doubles rounded up is not above the greatest double. -/
theorem ceil?_div?_le_greatestDouble {x y z : Binary64} {i : Int} (hz : x.div? y = some z)
    (hi : z.ceil? = some i) : i ≤ greatestDouble := by
  cases z with
  | finite negative m e =>
    obtain ⟨hm, he⟩ := bounds_of_div? hz
    cases hi
    exact ceilScaled_le_greatestDouble hm he negative
  | _ => cases hi

section

variable {n k : Nat}

theorem lt_two_pow_of_le (h : n ≤ (2 ^ 53 - 1) * 2 ^ k) : n < 2 ^ (53 + k) := by
  rw [Nat.pow_add]
  exact lt_of_le_of_lt h (Nat.mul_lt_mul_of_pos_right (by decide) (Nat.pow_pos (by decide)))

theorem quotientExponent_one_le (hk : (k : Int) = greatestExponent) (hn : 0 < n)
    (h : n ≤ (2 ^ 53 - 1) * 2 ^ k) : quotientExponent n 1 ≤ k := by
  have hlog : n.log2 < 53 + k := (Nat.log2_lt hn.ne').mpr (lt_two_pow_of_le h)
  have hone : Nat.log2 1 = 0 := by decide
  rw [greatestExponent] at hk
  unfold quotientExponent
  simp only [hone, leastExponent]
  split <;> omega

/-- At the greatest exponent the significand of an integer up to the greatest double does not
carry. -/
theorem divHalfEven_scaled_one_le (h : n ≤ (2 ^ 53 - 1) * 2 ^ k) :
    divHalfEven (scaled n 1 k).1 (scaled n 1 k).2 ≤ 2 ^ 53 - 1 := by
  have hscaled : scaled n 1 k = (n, 1 * 2 ^ k) := if_pos (Int.natCast_nonneg k)
  rw [hscaled, Nat.one_mul]
  exact divHalfEven_le (Nat.pow_pos (by decide)) h

theorem isSome_roundQuotient_one (hk : (k : Int) = greatestExponent)
    (h : n ≤ (2 ^ 53 - 1) * 2 ^ k) : (roundQuotient n 1).isSome = true := by
  rcases Nat.eq_zero_or_pos n with rfl | hn
  · rfl
  have hexponent := quotientExponent_one_le hk hn h
  have hcarry : quotientExponent n 1 = k →
      divHalfEven (scaled n 1 (quotientExponent n 1)).1 (scaled n 1 (quotientExponent n 1)).2 ≤
        2 ^ 53 - 1 := by
    intro heq
    rw [heq]
    exact divHalfEven_scaled_one_le h
  unfold roundQuotient
  simp only [if_neg hn.ne', ← hk]
  generalize divHalfEven (scaled n 1 (quotientExponent n 1)).1
      (scaled n 1 (quotientExponent n 1)).2 = rounded at hcarry
  by_cases hfull : rounded = 2 ^ 53
  · have hrange : quotientExponent n 1 + 1 ≤ k := by
      by_contra hlast
      have := hcarry (by omega)
      omega
    simp only [hfull, if_true, hrange]
    rfl
  · simp only [hfull, if_false, hexponent, if_true]
    split <;> rfl

theorem lt_ten_pow_of_le (hk : 53 + k ≤ maxDigits) (h : n ≤ (2 ^ 53 - 1) * 2 ^ k) :
    n < 10 ^ maxDigits :=
  calc n < 2 ^ (53 + k) := lt_two_pow_of_le h
    _ ≤ 10 ^ (53 + k) := Nat.pow_le_pow_left (by decide) (53 + k)
    _ ≤ 10 ^ maxDigits := Nat.pow_le_pow_right (by decide) hk

end

/-- **An integer up to the greatest double** is in range. -/
theorem isSome_nearestInt? {i : Int} (h : i.natAbs ≤ greatestDouble) :
    (nearestInt? i).isSome = true := by
  unfold greatestDouble at h
  unfold nearestInt?
  rw [Option.isSome_map]
  exact isSome_roundQuotient_one (k := 971) rfl h

/-- An integer up to the greatest double has few enough digits to be written. -/
theorem isWritable_of_natAbs_le {i : Int} (h : i.natAbs ≤ greatestDouble) :
    isWritable i = true := by
  unfold greatestDouble at h
  exact decide_eq_true (lt_ten_pow_of_le (k := 971) (by decide) h)

end ResourceQuery.Number
