import ResourceQuery.Number.Binary64

/-!
# Arithmetic on doubles

Sum, product and quotient of doubles are the doubles nearest to the exact results, ties to the
even significand. The exact result is a quotient of integers, so each operation rounds once.

Headlines:
* **`Binary64.nearestInt?`**: the double nearest to an integer, nothing if that is out of range.
* **`Binary64.mul`**, **`add`**, **`div?`**: the operations.
* **`Binary64.ceil?`**: the least integer not below a finite double.
-/

namespace ResourceQuery.Number.Binary64

-- Powers here are the core library's, whatever a module that uses this one imports.
attribute [local instance (2000)] instPowNat

/-- The double nearest to `n · 2 ^ e`. -/
def nearest (negative : Bool) (n : Nat) (e : Int) : Binary64 :=
  if 0 ≤ e then ofQuotient negative (n * 2 ^ e.toNat) 1
  else ofQuotient negative n (2 ^ (-e).toNat)

/-- The double nearest to an integer. -/
def nearestInt? (i : Int) : Option Binary64 :=
  (roundQuotient i.natAbs 1).map fun (m, e) => .finite (decide (i < 0)) m e

/-- The product of two doubles. Zero times an infinity is undefined. -/
def mul : Binary64 → Binary64 → Binary64
  | .nan, _ | _, .nan => .nan
  | .infinite a, .infinite b => .infinite (a != b)
  | .infinite a, .finite b n _ | .finite b n _, .infinite a =>
    if n = 0 then .nan else .infinite (a != b)
  | .finite a m d, .finite b n e => nearest (a != b) (m * n) (d + e)

/-- The sum of two doubles. It is a negative zero only if both are. -/
def add : Binary64 → Binary64 → Binary64
  | .nan, _ | _, .nan => .nan
  | .infinite a, .infinite b => if a = b then .infinite a else .nan
  | .infinite a, _ | _, .infinite a => .infinite a
  | .finite a m d, .finite b n e =>
    let low := min d e
    let sum := signed a m * 2 ^ (d - low).toNat + signed b n * 2 ^ (e - low).toNat
    if sum = 0 then .finite (a && b && m = 0) 0 0 else nearest (decide (sum < 0)) sum.natAbs low

/-- The quotient of two doubles, nothing if the divisor is zero. -/
def div? : Binary64 → Binary64 → Option Binary64
  | .nan, _ | _, .nan => some .nan
  | .infinite a, .finite b _ _ => some (.infinite (a != b))
  | .infinite _, .infinite _ => some .nan
  | .finite a _ _, .infinite b => some (.finite (a != b) 0 0)
  | .finite a m d, .finite b n e =>
    if n = 0 then none
    else some (ofQuotient (a != b) (m * 2 ^ (d - e).toNat) (n * 2 ^ (e - d).toNat))

/-- The least integer not below a finite double. -/
def ceil? : Binary64 → Option Int
  | .finite negative m e => some (ceilScaled (signed negative m) e)
  | _ => none

end ResourceQuery.Number.Binary64
