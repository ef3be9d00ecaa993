import ResourceQuery.OrderedMap
import ResourceQuery.Rules.Strategy
import ResourceQuery.Text.Lowercase
import ResourceQuery.Value.Check
import ResourceQuery.Value.Demand

/-!
# Strategies written as data

A script is a list of calls on a collection, each made on the result of the one before. The
arguments of a call may have gaps, which are filled with what the strategy is asked for.

Headlines:
* **`Term`**: an argument with gaps; **`Term.fill`** fills them.
* **`Action`**: a call with such arguments; **`Action.invocation`** the call that it makes.
* **`Script.run`**: the calls of a script one after the other.
* **`Strategy.ofScript`**: a script as a strategy.
-/

namespace ResourceQuery

/-- An argument with gaps. -/
inductive Term where
  | fixed (v : Value)
  | query
  | direction
  | name
  /-- The query in lower case. -/
  | lowerQuery
  /-- Texts joined into one. -/
  | joined (parts : List Term)
  | list (items : List Term)
  | tuple (items : List Term)
deriving Repr, Inhabited

namespace Term

/-- Texts joined into one; what is no text cannot be joined. -/
def joinTexts (parts : List Value) : Except QueryError Value :=
  match parts.mapM Value.spelling? with
  | some texts => .ok (.str (String.join texts))
  | none => .error .wrongKind

/-- A text in lower case. -/
def lowered (v : Value) : Except QueryError Value :=
  (v.textFor "lower").map fun s => .str (Text.lowercase s)

mutual

/-- Fill the gaps of an argument. -/
def fill (a : Arguments) : Term → Except QueryError Value
  | .fixed v => .ok v
  | .query => .ok a.query
  | .direction => .ok a.direction
  | .name => .ok a.name
  | .lowerQuery => lowered a.query
  | .joined parts => do joinTexts (← fillAll a parts)
  | .list items => do return .list (← fillAll a items)
  | .tuple items => do return .tuple (← fillAll a items)

/-- Fill the gaps of several arguments. -/
def fillAll (a : Arguments) : List Term → Except QueryError (List Value)
  | [] => .ok []
  | t :: ts => do
    let v ← fill a t
    return v :: (← fillAll a ts)

end

/-- Fill the gaps of named arguments. Of two with the same name the last value counts. -/
def fillNamed (a : Arguments) (named : List (String × Term)) :
    Except QueryError (List (String × Value)) := do
  return (OrderedMap.ofList (← named.mapM fun (key, t) => do return (key, ← t.fill a))).entries

end Term

/-- A call with gaps. -/
inductive Action where
  /-- A method by its name. -/
  | method (name : String) (arguments : List Term) (named : List (String × Term))
  /-- Keep the records for which checks hold. -/
  | checks (checks : List Check) (named : List (String × Term))
  /-- Keep the records that satisfy comparisons of columns. -/
  | columns (comparisons : List (String × ColumnOp × Value)) (named : List (String × Term))
deriving Inhabited

namespace Action

/-- The call that an action makes. -/
def invocation (a : Arguments) : Action → Except QueryError Invocation
  | .method name arguments named =>
    match Method.ofName? name with
    | none => .error .noAttribute
    | some m => do
      return ⟨m, (← Term.fillAll a arguments).map .given, ← Term.fillNamed a named⟩
  | .checks tests named => do
    return ⟨.restrict, tests.map fun c => .test c.holds, ← Term.fillNamed a named⟩
  | .columns comparisons named => do
    return ⟨.restrict, comparisons.map fun (column, op, v) => .column column op v,
      ← Term.fillNamed a named⟩

/-- Make the call on a collection. -/
def perform {C : Type} [Collection C] (a : Arguments) (c : C) (action : Action) : Traced C := do
  Collection.invoke (← Traced.ofExcept (action.invocation a)) c

end Action

/-- Calls to make one after the other. -/
abbrev Script := List Action

/-- Make the calls of a script; without any the collection itself is the result. -/
def Script.run {C : Type} [Collection C] (script : Script) (a : Arguments) (c : C) : Traced C :=
  script.foldlM (Action.perform a) c

/-- What a function is given for a task. -/
def Task.given : Task → Arguments
  | .filter query => { query }
  | .sort direction => { direction := direction.toValue }
  | .dynamicSort name direction => { name := .str name, direction := direction.toValue }
  | .defaultSort => {}

/-- A script as a function strategy. -/
def Strategy.ofScript {C : Type} [Collection C] (label : String) (script : Script) : Strategy C :=
  .function label fun task c => script.run task.given c

end ResourceQuery
