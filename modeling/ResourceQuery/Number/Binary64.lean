/-!
# Double precision numbers, exactly

A finite double is `m · 2 ^ e` with an integer significand below `2 ^ 53`, so the type holds
exactly that and every comparison is exact integer arithmetic. Rounding happens in one place:
the quotient of two integers is taken to the nearest double, ties to the even significand.

Headlines:
* **`roundQuotient`**: the double nearest to `num / den`, nothing if it is out of range.
* **`compare?`**: exact comparison of two doubles; nothing compares with NaN.
* **`Binary64.compare?_ofInt`**: integers compare as such.
* **`Binary64.ceilScaled`**: the least integer not below a scaled one.
* **`ceilQuotient`**: the least integer not below the rounded quotient of two integers.
* **`two_mul_divHalfEven_le`**, **`le_two_mul_divHalfEven`**: rounding moves a quotient by at most half a unit.
-/

namespace ResourceQuery.Number

-- Powers here are the core library's, whatever a module that uses this one imports.
attribute [local instance (2000)] instPowNat

/-- A double precision number. The sign is kept apart, so that zero has two signs. -/
inductive Binary64 where
  /-- The result of an undefined operation. -/
  | nan
  /-- Beyond every finite number. -/
  | infinite (negative : Bool)
  /-- The number `significand · 2 ^ exponent`, negated if `negative`. -/
  | finite (negative : Bool) (significand : Nat) (exponent : Int)
deriving Repr, DecidableEq

/-! ## Rounding to nearest -/

/-- The integer nearest to `n / d`, a tie going to the even one. -/
def divHalfEven (n d : Nat) : Nat :=
  let q := n / d
  let r := n % d
  if 2 * r < d then q
  else if d < 2 * r then q + 1
  else q + q % 2

theorem le_two_mul_divHalfEven (n : Nat) {d : Nat} (hd : 0 < d) :
    2 * n ≤ (2 * divHalfEven n d + 1) * d := by
  have h := Nat.div_add_mod n d
  have hlt := Nat.mod_lt n hd
  have e1 : (2 * (n / d) + 1) * d = 2 * (d * (n / d)) + d := by
    rw [Nat.add_mul, Nat.mul_assoc, Nat.mul_comm (n / d) d, Nat.one_mul]
  have e2 : (2 * (n / d + 1) + 1) * d = 2 * (d * (n / d)) + 3 * d := by
    rw [Nat.add_mul, Nat.mul_assoc, Nat.add_mul, Nat.mul_comm (n / d) d]; omega
  unfold divHalfEven
  rcases Nat.mod_two_eq_zero_or_one (n / d) with hp | hp <;> simp only [hp] <;> split
  · omega
  · split
    · omega
    · simp only [Nat.add_zero]; omega
  · omega
  · split <;> omega

theorem two_mul_divHalfEven_le (n : Nat) {d : Nat} (hd : 0 < d) :
    2 * (divHalfEven n d * d) ≤ 2 * n + d := by
  have h := Nat.div_add_mod n d
  have e1 : (n / d) * d = d * (n / d) := Nat.mul_comm _ _
  have e2 : (n / d + 1) * d = d * (n / d) + d := by rw [Nat.add_mul, Nat.mul_comm]; omega
  unfold divHalfEven
  rcases Nat.mod_two_eq_zero_or_one (n / d) with hp | hp <;> simp only [hp] <;> split
  · omega
  · split
    · omega
    · simp only [Nat.add_zero]; omega
  · omega
  · split <;> omega

/-- The least exponent of a finite double. -/
def leastExponent : Int := -1074

/-- The greatest exponent of a finite double. -/
def greatestExponent : Int := 971

/-- Numerator and denominator of `num / den / 2 ^ e`. -/
def scaled (num den : Nat) (e : Int) : Nat × Nat :=
  if 0 ≤ e then (num, den * 2 ^ e.toNat) else (num * 2 ^ (-e).toNat, den)

/-- The exponent at which the quotient of two positive numbers has 53 bits before the point,
or the least one there is. -/
def quotientExponent (num den : Nat) : Int :=
  let guess : Int := num.log2 - den.log2 - 52
  let (n, d) := scaled num den guess
  max leastExponent (if n < 2 ^ (52 : Nat) * d then guess - 1 else guess)

/-- Significand and exponent of the double nearest to a quotient of positive numbers, and
nothing if that is out of range. -/
def roundQuotient (num den : Nat) : Option (Nat × Int) :=
  if num = 0 then some (0, 0)
  else
    let e := quotientExponent num den
    let (n, d) := scaled num den e
    let m := divHalfEven n d
    let (m, e) := if m = 2 ^ (53 : Nat) then (2 ^ (52 : Nat), e + 1) else (m, e)
    if m = 0 then some (0, 0)
    else if e ≤ greatestExponent then some (m, e)
    else none

/-- The double nearest to `num / den`, with a sign. -/
def ofQuotient (negative : Bool) (num den : Nat) : Binary64 :=
  match roundQuotient num den with
  | some (m, e) => .finite negative m e
  | none => .infinite negative

/-- The double nearest to `digits · 10 ^ exponent`. Exponents far beyond the range are decided
without computing the power. -/
def ofDecimal (negative : Bool) (digits : Nat) (exponent : Int) : Binary64 :=
  if digits = 0 then .finite negative 0 0
  else
    let magnitude : Int := exponent + (Nat.toDigits 10 digits).length
    if 400 < magnitude then .infinite negative
    else if magnitude < -400 then .finite negative 0 0
    else if 0 ≤ exponent then ofQuotient negative (digits * 10 ^ exponent.toNat) 1
    else ofQuotient negative digits (10 ^ (-exponent).toNat)

/-! ## Comparison -/

namespace Binary64

/-- The significand with its sign. -/
def signed (negative : Bool) (m : Nat) : Int := if negative then -(m : Int) else m

/-- Compare `a · 2 ^ d` with `b · 2 ^ e`. -/
def compareScaled (a : Int) (d : Int) (b : Int) (e : Int) : Ordering :=
  let low := min d e
  compare (a * 2 ^ (d - low).toNat) (b * 2 ^ (e - low).toNat)

/-- Compare two doubles; NaN compares with nothing. -/
def compare? : Binary64 → Binary64 → Option Ordering
  | .nan, _ | _, .nan => none
  | .infinite a, .infinite b =>
    some (match a, b with
      | true, false => .lt
      | false, true => .gt
      | _, _ => .eq)
  | .infinite a, .finite .. => some (if a then .lt else .gt)
  | .finite .., .infinite b => some (if b then .gt else .lt)
  | .finite a m d, .finite b n e => some (compareScaled (signed a m) d (signed b n) e)

/-- An integer of any size as a number to compare with. It is not rounded. -/
def ofInt (i : Int) : Binary64 := .finite (decide (i < 0)) i.natAbs 0

theorem signed_natAbs (i : Int) : signed (decide (i < 0)) i.natAbs = i := by
  unfold signed
  by_cases h : i < 0
  · rw [if_pos (decide_eq_true h)]
    omega
  · rw [if_neg (by simpa using h)]
    omega

/-- Integers are compared exactly. -/
theorem compare?_ofInt (i j : Int) : (ofInt i).compare? (ofInt j) = some (compare i j) := by
  simp only [ofInt, compare?, compareScaled, signed_natAbs, Int.min_self, Int.sub_self,
    Int.toNat_zero, Int.pow_zero, Int.mul_one]

/-- Is this a finite number without a fraction? -/
def toInt? : Binary64 → Option Int
  | .finite negative m e =>
    if 0 ≤ e then some (signed negative m * 2 ^ e.toNat)
    else
      let unit := 2 ^ (-e).toNat
      if m % unit = 0 then some (signed negative (m / unit)) else none
  | _ => none

/-- The integer part of a finite number, toward zero. -/
def truncate? : Binary64 → Option Int
  | .finite negative m e =>
    some (if 0 ≤ e then signed negative m * 2 ^ e.toNat
      else signed negative (m / 2 ^ (-e).toNat))
  | _ => none

/-- The least integer not below `m · 2 ^ e` for an integer `m`. -/
def ceilScaled (m : Int) (e : Int) : Int :=
  if 0 ≤ e then m * 2 ^ e.toNat else -((-m).fdiv (2 ^ (-e).toNat))

/-- Is this a zero, of either sign? -/
def isZero : Binary64 → Bool
  | .finite _ 0 _ => true
  | _ => false

end Binary64

/-- The least integer not below the double nearest to `count / size`, and nothing if that
double is out of range. -/
def ceilQuotient (count : Int) (size : Nat) : Option Int :=
  (roundQuotient count.natAbs size).map fun (m, e) =>
    Binary64.ceilScaled (Binary64.signed (decide (count < 0)) m) e

end ResourceQuery.Number
