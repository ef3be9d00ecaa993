import Mathlib.Data.Nat.Log
import Mathlib.Tactic.Linarith
import Mathlib.Tactic.Ring
import ResourceQuery.Number.Binary64

/-!
# Quotients rounded up through doubles

The least integer not below a quotient is computed from the double nearest to it. Up to `2 ^ 53`
the double never falls onto or across an integer that the quotient does not reach itself: a
quotient that is no integer lies further above the integer before it than a rounding can move it.

Headlines:
* **`quotientExponent_eq`**: the exponent at which a quotient below `2 ^ 53` is rounded.
* **`ceilQuotient_of_between`**: its rounded quotient, rounded up, by the bounds of a ceiling.
* **`ceilQuotient_exact`**: for a quotient of at least one that is the exact one.
* **`ceilQuotient_eq`**: between integers up to `2 ^ 53` it is the exact one.
* **`max_one_ceilQuotient`**: a quotient below one makes no more than one.
-/

namespace ResourceQuery.Number

open Binary64

theorem scaled_neg (num den t : Nat) : scaled num den (-(t : Int)) = (num * 2 ^ t, den) := by
  unfold scaled
  by_cases h : 0 ≤ -(t : Int)
  · have ht : t = 0 := by omega
    subst ht
    rw [if_pos h]
    simp
  · rw [if_neg h, Int.neg_neg, Int.toNat_natCast]

/-- The exponent before it is cut off at the least one. -/
theorem quotientExponent_eq_max {num den : Nat} (hnum : 0 < num) (hden : 0 < den)
    (h : num < 2 ^ 53 * den) :
    ∃ t : Nat, quotientExponent num den = max leastExponent (-(t : Int)) ∧
      num * 2 ^ t < 2 ^ 53 * den ∧ 2 ^ 52 * den ≤ num * 2 ^ t := by
  have hnum₁ : 2 ^ num.log2 ≤ num := Nat.log2_self_le hnum.ne'
  have hnum₂ : num < 2 ^ (num.log2 + 1) := Nat.lt_log2_self
  have hden₁ : 2 ^ den.log2 ≤ den := Nat.log2_self_le hden.ne'
  have hden₂ : den < 2 ^ (den.log2 + 1) := Nat.lt_log2_self
  have hlog : num.log2 < den.log2 + 54 := by
    refine (Nat.pow_lt_pow_iff_right (a := 2) (by decide)).mp ?_
    calc 2 ^ num.log2 ≤ num := hnum₁
      _ < 2 ^ 53 * den := h
      _ < 2 ^ 53 * 2 ^ (den.log2 + 1) := Nat.mul_lt_mul_of_pos_left hden₂ (by decide)
      _ = 2 ^ (den.log2 + 54) := by rw [← Nat.pow_add]; congr 1; omega
  by_cases hbig : den.log2 + 53 ≤ num.log2
  · -- The quotient has 54 bits at the guess, so the guess is one too large.
    have hguess : (num.log2 : Int) - den.log2 - 52 = 1 := by omega
    have hscaled : scaled num den 1 = (num, den * 2) := rfl
    refine ⟨0, ?_, by simpa using h, ?_⟩
    · unfold quotientExponent
      simp only [hguess, hscaled]
      rw [if_pos (by omega)]
      rfl
    · have hpow : 2 ^ (den.log2 + 53) ≤ num :=
        le_trans (Nat.pow_le_pow_right (by decide) hbig) hnum₁
      have hsplit : 2 ^ (den.log2 + 53) = 2 ^ 52 * 2 ^ (den.log2 + 1) := by
        rw [← Nat.pow_add]; congr 1; omega
      omega
  · obtain ⟨u, hu⟩ : ∃ u, den.log2 + 52 = num.log2 + u := ⟨den.log2 + 52 - num.log2, by omega⟩
    have hguess : (num.log2 : Int) - den.log2 - 52 = -(u : Int) := by omega
    have hlow : 2 ^ 52 * 2 ^ den.log2 ≤ num * 2 ^ u := by
      calc 2 ^ 52 * 2 ^ den.log2 = 2 ^ num.log2 * 2 ^ u := by
            rw [← Nat.pow_add, ← Nat.pow_add]; congr 1; omega
        _ ≤ num * 2 ^ u := Nat.mul_le_mul_right _ hnum₁
    have hhigh : num * 2 ^ u < 2 ^ 53 * 2 ^ den.log2 := by
      calc num * 2 ^ u < 2 ^ (num.log2 + 1) * 2 ^ u :=
            Nat.mul_lt_mul_of_pos_right hnum₂ (Nat.pow_pos (by decide))
        _ = 2 ^ 53 * 2 ^ den.log2 := by
            rw [← Nat.pow_add, ← Nat.pow_add]; congr 1; omega
    have hexponent : quotientExponent num den =
        max leastExponent (if num * 2 ^ u < 2 ^ 52 * den then -(u : Int) - 1 else -(u : Int)) := by
      unfold quotientExponent
      simp only [hguess, scaled_neg]
    have hdouble : num * 2 ^ (u + 1) = 2 * (num * 2 ^ u) := by ring
    have hden₃ : 2 ^ (den.log2 + 1) = 2 * 2 ^ den.log2 := by ring
    by_cases hshort : num * 2 ^ u < 2 ^ 52 * den
    · refine ⟨u + 1, ?_, by omega, by omega⟩
      rw [hexponent, if_pos hshort]
      congr 1
      omega
    · refine ⟨u, ?_, by omega, by omega⟩
      rw [hexponent, if_neg hshort]

/-- **The exponent of a quotient below `2 ^ 53`**: at it the quotient has 53 bits, or the exponent
is the least one. -/
theorem quotientExponent_eq {num den : Nat} (hnum : 0 < num) (hden : 0 < den)
    (h : num < 2 ^ 53 * den) :
    ∃ t : Nat, quotientExponent num den = -(t : Int) ∧ num * 2 ^ t < 2 ^ 53 * den ∧
      (2 ^ 52 * den ≤ num * 2 ^ t ∨ 1074 ≤ t) := by
  obtain ⟨t, ht, hlt, hle⟩ := quotientExponent_eq_max hnum hden h
  rw [leastExponent] at ht
  by_cases hleast : t ≤ 1074
  · exact ⟨t, by omega, hlt, Or.inl hle⟩
  · obtain ⟨least, hcut⟩ : ∃ least : Nat, least = 1074 := ⟨_, rfl⟩
    refine ⟨least, by omega, lt_of_le_of_lt ?_ hlt, Or.inr hcut.ge⟩
    exact Nat.mul_le_mul_left num (Nat.pow_le_pow_right (by decide) (by omega))

/-! ## Rounding up -/

/-- A ceiling by its bounds. -/
theorem ceilScaled_of_between {m t k : Nat} (hlow : k * 2 ^ t < m + 2 ^ t)
    (hhigh : m ≤ k * 2 ^ t) : ceilScaled m (-(t : Int)) = k := by
  unfold ceilScaled
  by_cases h : 0 ≤ -(t : Int)
  · have ht : t = 0 := by omega
    subst ht
    rw [if_pos h]
    simp at hlow hhigh ⊢
    omega
  · have hpos : (0 : Int) < 2 ^ t := by positivity
    have hlow' : (k : Int) * 2 ^ t < m + 2 ^ t := by exact_mod_cast hlow
    have hhigh' : (m : Int) ≤ k * 2 ^ t := by exact_mod_cast hhigh
    have hdiv : -(m : Int) / 2 ^ t = -(k : Int) :=
      (Int.ediv_eq_iff_of_pos hpos).mpr ⟨by linarith, by linarith⟩
    rw [if_neg h, Int.neg_neg, Int.toNat_natCast, Int.fdiv_eq_ediv_of_nonneg _ hpos.le, hdiv,
      Int.neg_neg]

/-- The same after a carry into the next power of two. -/
theorem ceilScaled_carry {t k : Nat} (hlow : k * 2 ^ t < 2 ^ 53 + 2 ^ t)
    (hhigh : 2 ^ 53 ≤ k * 2 ^ t) : ceilScaled (2 ^ 52 : Nat) (-(t : Int) + 1) = k := by
  cases t with
  | zero =>
    have hk : k = 2 ^ 53 := by omega
    subst hk
    rfl
  | succ t =>
    have he : -((t + 1 : Nat) : Int) + 1 = -(t : Int) := by omega
    have hdouble : k * 2 ^ (t + 1) = 2 * (k * 2 ^ t) := by ring
    have hdouble' : 2 ^ (t + 1) = 2 * 2 ^ t := by ring
    rw [he]
    exact ceilScaled_of_between (by omega) (by omega)

/-- **The rounded quotient, rounded up**: the integer between whose bounds the significand of the
quotient lies. -/
theorem ceilQuotient_of_between {num den t k : Nat} (hnum : 0 < num)
    (ht : quotientExponent num den = -(t : Int))
    (hlow : k * 2 ^ t < divHalfEven (num * 2 ^ t) den + 2 ^ t)
    (hhigh : divHalfEven (num * 2 ^ t) den ≤ k * 2 ^ t) :
    ceilQuotient num den = some (k : Int) := by
  unfold ceilQuotient roundQuotient
  rw [Int.natAbs_natCast, if_neg hnum.ne', ht]
  simp only [scaled_neg]
  generalize divHalfEven (num * 2 ^ t) den = m at hlow hhigh ⊢
  have hpositive : decide ((num : Int) < 0) = false := by simp
  have hrange : -(t : Int) + 1 ≤ greatestExponent := by
    rw [greatestExponent]
    omega
  by_cases hcarry : m = 2 ^ 53
  · subst hcarry
    simp only [if_pos, hrange, hpositive, signed]
    rw [if_neg (by decide)]
    exact congrArg some (ceilScaled_carry hlow hhigh)
  · simp only [if_neg hcarry]
    by_cases hzero : m = 0
    · subst hzero
      have hk : k = 0 := by
        by_contra hne
        have := Nat.le_mul_of_pos_left (2 ^ t) (Nat.pos_of_ne_zero hne)
        omega
      subst hk
      rfl
    · rw [if_neg hzero, if_pos (by omega)]
      simp only [Option.map_some, hpositive, signed]
      exact congrArg some (ceilScaled_of_between hlow hhigh)

/-- Rounding does not move a quotient beyond an integer above it. -/
theorem divHalfEven_le {n d k : Nat} (hd : 0 < d) (h : n ≤ k * d) : divHalfEven n d ≤ k := by
  have hround := two_mul_divHalfEven_le n hd
  by_contra hlt
  have hstep : (k + 1) * d ≤ divHalfEven n d * d := Nat.mul_le_mul_right d (by omega)
  rw [Nat.add_mul, Nat.one_mul] at hstep
  omega

/-- The same on a finer scale. -/
theorem divHalfEven_le_of_le_mul {num den t k : Nat} (hden : 0 < den) (h : num ≤ k * den) :
    divHalfEven (num * 2 ^ t) den ≤ k * 2 ^ t := by
  refine divHalfEven_le hden ?_
  calc num * 2 ^ t ≤ k * den * 2 ^ t := Nat.mul_le_mul_right _ h
    _ = k * 2 ^ t * den := by ring

/-- Rounding does not move a quotient of at least one down to an integer below it. -/
theorem lt_divHalfEven_of_mul_lt {num den t j : Nat} (hden : 0 < den) (hle : den ≤ num)
    (hnum : num ≤ 2 ^ 53) (hbits : 2 ^ 52 * den ≤ num * 2 ^ t ∨ 1074 ≤ t) (h : j * den < num) :
    j * 2 ^ t < divHalfEven (num * 2 ^ t) den := by
  by_contra hnot
  have hround := le_two_mul_divHalfEven (num * 2 ^ t) hden
  generalize divHalfEven (num * 2 ^ t) den = m at hnot hround
  have hm : (2 * m + 1) * den ≤ (2 * (j * 2 ^ t) + 1) * den :=
    Nat.mul_le_mul_right den (by omega)
  have hj : (j * den + 1) * 2 ^ t ≤ num * 2 ^ t := Nat.mul_le_mul_right _ h
  have e₁ : (2 * (j * 2 ^ t) + 1) * den = 2 * (j * den * 2 ^ t) + den := by ring
  have e₂ : (j * den + 1) * 2 ^ t = j * den * 2 ^ t + 2 ^ t := by ring
  have hunit : 2 * 2 ^ t ≤ den := by omega
  -- A unit in the last place is at most half the denominator, which leaves one quotient only.
  have hbits' : 2 ^ 52 * den ≤ num * 2 ^ t := by
    rcases hbits with hbits | hbits
    · exact hbits
    · have hlarge : 2 ^ 53 ≤ 2 ^ t := Nat.pow_le_pow_right (by decide) (by omega)
      omega
  have hfull : num * (2 * 2 ^ t) ≤ 2 ^ 53 * (2 * 2 ^ t) := Nat.mul_le_mul_right _ hnum
  have hden' : den = 2 * 2 ^ t := by
    have : num * (2 * 2 ^ t) = 2 * (num * 2 ^ t) := by ring
    omega
  have hnum' : num = 2 ^ 53 := by
    by_contra hne
    have hless : num * (2 * 2 ^ t) < 2 ^ 53 * (2 * 2 ^ t) :=
      Nat.mul_lt_mul_of_pos_right (by omega) (by positivity)
    have : num * (2 * 2 ^ t) = 2 * (num * 2 ^ t) := by ring
    omega
  have hm' : 2 ^ 53 ≤ 2 * m + 1 := by
    refine Nat.le_of_mul_le_mul_right ?_ hden
    calc 2 ^ 53 * den = 2 * (num * 2 ^ t) := by rw [hnum', hden']; ring
      _ ≤ (2 * m + 1) * den := hround
  have hj' : 2 * (j * 2 ^ t) < 2 ^ 53 := by
    calc 2 * (j * 2 ^ t) = j * den := by rw [hden']; ring
      _ < 2 ^ 53 := hnum' ▸ h
  omega

/-- **Up to `2 ^ 53` the rounded quotient is rounded up to the exact ceiling.** -/
theorem ceilQuotient_exact {num den : Nat} (hden : 0 < den) (hle : den ≤ num)
    (hnum : num ≤ 2 ^ 53) : ceilQuotient num den = some (((num + den - 1) / den : Nat) : Int) := by
  by_cases hlimit : num < 2 ^ 53 * den
  · obtain ⟨t, ht, -, hbits⟩ := quotientExponent_eq (by omega) hden hlimit
    obtain ⟨j, hj⟩ : ∃ j, (num + den - 1) / den = j + 1 :=
      Nat.exists_eq_succ_of_ne_zero (Nat.div_pos (by omega) hden).ne'
    have hdiv := Nat.div_add_mod (num + den - 1) den
    have hmod := Nat.mod_lt (num + den - 1) hden
    rw [hj, Nat.mul_comm] at hdiv
    have hsucc : (j + 1) * den = j * den + den := by ring
    have hlow := lt_divHalfEven_of_mul_lt (t := t) (j := j) hden hle hnum hbits (by omega)
    have hpow : (j + 1) * 2 ^ t = j * 2 ^ t + 2 ^ t := by ring
    rw [hj]
    refine ceilQuotient_of_between (by omega) ht (by omega) ?_
    exact divHalfEven_le_of_le_mul hden (by omega)
  · have hone : den = 1 := by
      by_contra hne
      have : 2 ^ 53 * 2 ≤ 2 ^ 53 * den := Nat.mul_le_mul_left _ (by omega)
      omega
    have hnum' : num = 2 ^ 53 := by omega
    subst hone hnum'
    decide +kernel

/-- A quotient between zero and one is rounded up to one, unless it is so small that the double
nearest to it is zero. -/
theorem ceilQuotient_of_lt {num den : Nat} (hnum : 0 < num) (hlt : num < den)
    (hden : den ≤ 2 ^ 53) : ceilQuotient num den = some 1 := by
  obtain ⟨t, ht, -, hbits⟩ := quotientExponent_eq hnum (hnum.trans hlt) (by omega)
  have hhigh : divHalfEven (num * 2 ^ t) den ≤ 1 * 2 ^ t :=
    divHalfEven_le_of_le_mul (hnum.trans hlt) (by omega)
  have hlarge : den ≤ num * 2 ^ t := by
    rcases hbits with hbits | hbits
    · omega
    · have hpow : 2 ^ 53 ≤ 2 ^ t := Nat.pow_le_pow_right (by decide) (by omega)
      have hfactor := Nat.le_mul_of_pos_left (2 ^ t) hnum
      omega
  have hpos : divHalfEven (num * 2 ^ t) den ≠ 0 := by
    intro hzero
    have hround := le_two_mul_divHalfEven (num * 2 ^ t) (hnum.trans hlt)
    rw [hzero] at hround
    omega
  exact ceilQuotient_of_between (k := 1) hnum ht (by omega) hhigh

/-- **Between integers up to `2 ^ 53` the rounded quotient is rounded up to the exact ceiling.** -/
theorem ceilQuotient_eq {num den : Nat} (hden : 0 < den) (hnum : num ≤ 2 ^ 53)
    (hden' : den ≤ 2 ^ 53) :
    ceilQuotient num den = some (((num + den - 1) / den : Nat) : Int) := by
  by_cases hle : den ≤ num
  · exact ceilQuotient_exact hden hle hnum
  · rcases Nat.eq_zero_or_pos num with rfl | hpos
    · rw [Nat.zero_add, Nat.div_eq_of_lt (by omega)]
      rfl
    · rw [ceilQuotient_of_lt hpos (by omega) hden']
      have hone : (num + den - 1) / den = 1 := by
        rw [Nat.div_eq_iff hden]
        omega
      rw [hone]
      rfl

/-- **A count of at least one page**: rounding the quotient makes no difference to it. -/
theorem max_one_ceilQuotient {count size : Nat} (hsize : 0 < size) (hcount : count ≤ 2 ^ 53) :
    ∃ pages : Int, ceilQuotient count size = some pages ∧
      max 1 pages = ((max 1 ((count + size - 1) / size) : Nat) : Int) := by
  by_cases hle : size ≤ count
  · refine ⟨_, ceilQuotient_exact hsize hle hcount, by omega⟩
  have hone : (count + size - 1) / size ≤ 1 := by
    rw [Nat.div_le_iff_le_mul hsize]
    omega
  rcases Nat.eq_zero_or_pos count with rfl | hpos
  · refine ⟨0, rfl, ?_⟩
    omega
  · have hlimit : count < 2 ^ 53 * size := by omega
    obtain ⟨t, ht, -, -⟩ := quotientExponent_eq hpos hsize hlimit
    have hhigh : divHalfEven (count * 2 ^ t) size ≤ 1 * 2 ^ t :=
      divHalfEven_le_of_le_mul hsize (by omega)
    by_cases hzero : divHalfEven (count * 2 ^ t) size = 0
    · refine ⟨0, ceilQuotient_of_between (k := 0) hpos ht ?_ ?_, by omega⟩
      · rw [Nat.zero_mul]
        positivity
      · omega
    · exact ⟨1, ceilQuotient_of_between (k := 1) hpos ht (by omega) hhigh, by omega⟩

end ResourceQuery.Number
