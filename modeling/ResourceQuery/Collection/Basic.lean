import ResourceQuery.Trace

/-!
# Collections

A collection is anything that answers the eight calls and the three ways to run a query. The
engines of this library know nothing else of it, so they serve lists in memory, database
statements and recorders alike.

Headlines:
* **`Collection`**: the interface.
* **`Selection`**: a collection, or a value that a stage has given in its place, such as the rows
  that it fetched. A value answers no call.
-/

namespace ResourceQuery

/-- What a collection answers. -/
class Collection (C : Type) where
  /-- The collection that a call describes. -/
  perform : Call → C → Traced C
  /-- The collection that a call describes as it is written down. -/
  invoke (i : Invocation) (c : C) : Traced C := do perform (← Traced.ofExcept i.call) c
  /-- The number of its records, whatever its window. -/
  count : C → Traced Int
  /-- Its records. -/
  all : C → Traced (List Value)
  /-- Its first record that satisfies the equations. -/
  findBy : List (String × Value) → C → Traced Value
  /-- What it counts for where a yes or no is asked for. -/
  holds : C → Traced Bool

/-! ## Values in place of collections -/

/-- A collection, or a value in its place. -/
inductive Selection (C : Type) where
  | live (collection : C)
  | given (v : Value)

namespace Selection

variable {C : Type} [Collection C]

/-- Rows in place of the collection from which they were fetched. -/
def ofRows (rows : List Value) : Selection C := .given (.list rows)

/-- Calling a method of a collection on a value. Lists, tuples and texts count something of their
own, which takes an argument. -/
def refusal (method : String) (v : Value) : QueryError :=
  match method, v with
  | "count", .list _ | "count", .tuple _ | "count", .str _ | "count", .direction _
  | "count", .loose _ => .wrongKind
  | _, v => .lackOf method v

instance : Collection (Selection C) where
  perform call
    | .live c => do return .live (← Collection.perform call c)
    | .given v => .fail (refusal (Invocation.ofCall call).method.name v)
  invoke i
    | .live c => do return .live (← Collection.invoke i c)
    | .given v => .fail (refusal i.method.name v)
  count
    | .live c => Collection.count c
    | .given v => .fail (refusal "count" v)
  all
    | .live c => Collection.all c
    | .given v => .fail (refusal "all" v)
  findBy criteria
    | .live c => Collection.findBy criteria c
    | .given v => .fail (refusal "find_by" v)
  holds
    | .live c => Collection.holds c
    | .given v => pure v.isTruthy

end Selection

end ResourceQuery
