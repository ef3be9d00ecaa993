import ResourceQuery.Collection.Basic

/-!
# Recording collections

A recorder notes what it is asked and stays what it is. Its count and its rows are given in
advance, so that a pipeline can be watched without data. It takes any arguments, but takes order
clauses apart.

Headlines:
* **`Recorder`**: the prepared answers.
* **`Recorder.noted`**: an invocation as it is noted.
-/

namespace ResourceQuery

/-- A collection with prepared answers that notes everything it is asked. -/
structure Recorder where
  size : Int
  rows : List Value
deriving Repr

namespace Recorder

/-- What a recorder finds. -/
def found : Value := .str "found"

/-- An order clause as it is noted: the list of its two parts. -/
def notedClause (clause : Criterion) : Except QueryError Criterion := do
  let (name, direction) ← unpackClause clause.value
  return .given (.list [name, direction])

/-- An invocation as it is noted. Nothing is asked of its arguments but that order clauses are
pairs and that the reserved name is not used. -/
def noted (i : Invocation) : Except QueryError Invocation :=
  if usesReservedName i.named then .error .wrongKind
  else
    match i.method with
    | .orderBy | .reorder => do return { i with arguments := ← i.arguments.mapM notedClause }
    | _ => .ok i

/-- Note an invocation. -/
def invoke (i : Invocation) (r : Recorder) : Traced Recorder := do
  Traced.note (.apply (← Traced.ofExcept (noted i)))
  return r

instance : Collection Recorder where
  perform call := invoke (.ofCall call)
  invoke := invoke
  count r := do
    Traced.note .count
    return r.size
  all r := do
    Traced.note .all
    return r.rows
  findBy criteria _ :=
    if usesReservedName criteria then .fail .wrongKind
    else do
      Traced.note (.findBy criteria)
      return found
  holds _ := pure true

end Recorder

end ResourceQuery
