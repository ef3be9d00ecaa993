import ResourceQuery.Number.Arithmetic
import ResourceQuery.Value.Basic

/-!
# Quantities

A number that sizes or limits a page: an integer, a truth value that counts as one or zero, or a
double. A quantity keeps its kind as long as nothing is computed with it. Sums and products of
integers are integers, and a double among the operands makes the result a double.

Headlines:
* **`Quantity.ofValue?`**, **`toValue`**: the values that are quantities;
  **`Quantity.ofValue?_toValue`** that none is lost.
* **`Quantity.isBelow`**: exact comparison; **`Quantity.smaller`** of two quantities the smaller.
* **`Quantity.scale?`**, **`shift?`**: multiples and sums with integers, nothing if an integer
  is out of the range of doubles.
* **`Quantity.pages?`**: how many times a quantity has to be taken to reach a number.
-/

namespace ResourceQuery

open Number

/-- A number that sizes or limits a page. -/
inductive Quantity where
  | whole (i : Int)
  | truth (b : Bool)
  | real (x : Binary64)
deriving Repr, DecidableEq

namespace Quantity

/-- The quantity that a value is. -/
def ofValue? : Value → Option Quantity
  | .int i => some (.whole i)
  | .bool b => some (.truth b)
  | .float x => some (.real x)
  | _ => none

/-- A quantity as a value. -/
def toValue : Quantity → Value
  | .whole i => .int i
  | .truth b => .bool b
  | .real x => .float x

@[simp] theorem ofValue?_toValue (q : Quantity) : ofValue? q.toValue = some q := by
  cases q <;> rfl

/-- The integer that a truth value counts as. -/
def ofTruth (b : Bool) : Int := if b then 1 else 0

/-- A quantity as an exact number to compare with. -/
def number : Quantity → Binary64
  | .whole i => .ofInt i
  | .truth b => .ofInt (ofTruth b)
  | .real x => x

/-- Is the first quantity smaller than the second? -/
def isBelow (a b : Quantity) : Bool := a.number.compare? b.number == some .lt

/-- The smaller of two quantities, the first if neither is smaller. -/
def smaller (a b : Quantity) : Quantity := if b.isBelow a then b else a

/-- The integer part of a quantity. -/
def truncate : Quantity → Int
  | .whole i => i
  | .truth b => ofTruth b
  | .real x => x.truncate?.getD 0

/-- A quantity taken so many times. -/
def scale? (q : Quantity) (times : Int) : Option Quantity :=
  match q with
  | .whole i => some (.whole (i * times))
  | .truth b => some (.whole (ofTruth b * times))
  | .real x => (Binary64.nearestInt? times).map fun t => .real (x.mul t)

/-- A quantity and an integer together. -/
def shift? (q : Quantity) (more : Int) : Option Quantity :=
  match q with
  | .whole i => some (.whole (i + more))
  | .truth b => some (.whole (ofTruth b + more))
  | .real x => (Binary64.nearestInt? more).map fun m => .real (x.add m)

/-- The least integer not below the quotient of an integer by a quantity, where the quotient is
rounded to a double. Nothing if the integer or the quotient is out of the range of doubles. -/
def pages? (records : Int) : Quantity → Option Int
  | .whole i => ceilQuotient records i.toNat
  | .truth b => ceilQuotient records (ofTruth b).toNat
  | .real x => do (← (← Binary64.nearestInt? records).div? x).ceil?

theorem isBelow_whole (a b : Int) : isBelow (.whole a) (.whole b) = decide (a < b) := by
  simp only [isBelow, number, Binary64.compare?_ofInt]
  rw [Bool.eq_iff_iff, beq_iff_eq, Option.some.injEq, Int.compare_eq_lt, decide_eq_true_iff]

end Quantity

end ResourceQuery
