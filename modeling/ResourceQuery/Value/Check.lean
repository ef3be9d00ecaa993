import ResourceQuery.Error
import ResourceQuery.Value.Field
import ResourceQuery.Value.Order

/-!
# Checks on a value

Small tests written as data, by which records are selected and conditions are stated. A check
gives a value, and holds if that value counts for yes.

Headlines:
* **`Check`**: the tests.
* **`Check.evaluate`**: the value that a check gives. The order test fails on two values that do
  not compare, and the test for being among others where that cannot be asked.
-/

namespace ResourceQuery

/-- A test of a value. -/
inductive Check where
  /-- Is it absent? -/
  | absent
  | equals (v : Value)
  /-- Is it among what the container holds? -/
  | among (container : Value)
  /-- Is it above a bound? -/
  | above (bound : Value)
  /-- The same answer for every value. -/
  | constant (answer : Value)
  /-- The value itself is the answer. -/
  | itself
  | negated (c : Check)
  /-- Test what a path leads to. -/
  | field (path : String) (c : Check)
deriving Repr, Inhabited

namespace Check

/-- The answer of a check for a value. -/
def evaluate (x : Value) : Check → Except QueryError Value
  | .absent => .ok (.bool x.isNull)
  | .equals v => .ok (.bool (x.same v))
  | .among container =>
    match container.contains? x with
    | some answer => .ok (.bool answer)
    | none => .error .wrongKind
  | .above bound =>
    match bound.below? x with
    | some answer => .ok (.bool answer)
    | none => .error .wrongKind
  | .constant answer => .ok answer
  | .itself => .ok x
  | .negated c => do return .bool !(← evaluate x c).isTruthy
  | .field path c => evaluate (x.resolve path) c

/-- Does a check hold for a value? -/
def holds (c : Check) (x : Value) : Except QueryError Bool := do
  return (← c.evaluate x).isTruthy

end Check

end ResourceQuery
