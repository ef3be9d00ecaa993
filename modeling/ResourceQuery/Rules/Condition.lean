import ResourceQuery.Rules.Strategy

/-!
# Conditions and guards

A filter may be declared to apply only when a condition holds, or unless it does. A condition
is a fixed answer, a function of the query, or the name of a check on the filter's class. A
guard pairs a condition with the outcome that it must have, so that both ways of declaring one
are evaluated alike.

Headlines:
* **`Condition.evaluate`**: the outcome of a condition.
* **`Guard.passes`**: does the outcome equal the expected one?
* **`GivenCondition.toCondition`**: what may stand where a condition is declared. The name of
  a check is looked up on the class at once.
-/

namespace ResourceQuery

/-- A condition on the query of a filter. -/
inductive Condition where
  | always (answer : Value)
  /-- A function of the query; what it gives is taken for a yes or a no. -/
  | predicate (answer : Value → Except QueryError Value)
  /-- The outcome of a check of the filter's class. -/
  | named (check : String)

/-- A condition and the outcome that it must have. -/
structure Guard where
  condition : Condition
  expected : Bool := true

namespace Condition

variable {C : Type} [Collection C]

/-- How the missing object is called in messages. -/
def noObjectName : String := "NoneType"

/-- The outcome of a check by its name. The method that gives the resulting collection counts
as a check as well; it holds if that collection counts for yes. -/
def evaluateNamed (check : String) (object : Option (StrategyObject C)) : Traced Bool :=
  match object with
  | none => .fail (.misconfigured (.missingCheck noObjectName check))
  | some o =>
    match o.method? check with
    | some outcome => do Collection.holds (← outcome)
    | none => .fail (.misconfigured (.missingCheck o.cls.name check))

/-- The outcome of a condition for a query and the object built from it, if there is one. -/
def evaluate (query : Value) (object : Option (StrategyObject C)) : Condition → Traced Bool
  | .always answer => pure answer.isTruthy
  | .predicate answer => .ofExcept ((answer query).map Value.isTruthy)
  | .named check => evaluateNamed check object

end Condition

/-- Does a condition have the outcome that it must have? -/
def Guard.passes {C : Type} [Collection C] (query : Value) (object : Option (StrategyObject C))
    (g : Guard) : Traced Bool := do
  return (← g.condition.evaluate query object) == g.expected

/-! ## Declared conditions -/

/-- What may stand where a condition is declared. -/
inductive GivenCondition where
  | condition (c : Condition)
  | function (answer : Value → Except QueryError Value)
  | value (v : Value)

namespace GivenCondition

/-- The condition that a declaration states, before names are looked up. -/
def read (name : String) : GivenCondition → Except QueryError Condition
  | .condition c => .ok c
  | .function answer => .ok (.predicate answer)
  | .value (.bool b) => .ok (.always (.bool b))
  | .value (.str check) => .ok (.named check)
  | .value v => .error (.misconfigured (.conditionShape name v))

/-- A named check has to be a member of the strategy, which has to be a class. -/
def lookUp {C : Type} (name : String) (strategy : Strategy C) :
    Condition → Except QueryError Condition
  | .named check =>
    match strategy with
    | .function .. => .error (.misconfigured (.checkNeedsClass check name))
    | .cls c =>
      if c.hasMember check then .ok (.named check)
      else .error (.misconfigured (.missingCheck c.name check))
  | c => .ok c

/-- The condition that is declared for `name` with a strategy. -/
def toCondition {C : Type} (name : String) (strategy : Strategy C) (given : GivenCondition) :
    Except QueryError Condition := do
  lookUp name strategy (← given.read name)

end GivenCondition

end ResourceQuery
