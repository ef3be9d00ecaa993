import ResourceQuery.Pagination.Pager
import ResourceQuery.Query.Stages

/-!
# Queries

A query serves one request over one collection: it sorts, includes, filters and pages, or looks
a single record up. It remembers the details of the last page that it made.

Headlines:
* **`Session`**: computations that may change the remembered details. A failure keeps what was
  remembered before it.
* **`Session.written`**: the same with its log written down.
* **`Session.run_bind_of_ok`**, **`run_bind_of_error`**: how two computations run in sequence.
* **`Query.results`**: all stages in the order of the settings.
* **`Query.sort`**, **`includes`**, **`filter`**, **`paginate`**: one stage, with the request's
  parameter or one that is given in its place.
* **`Query.findBy`**: a single record, looked up after the include stage alone.
* **`Query.serve`**: any of these operations.
-/

namespace ResourceQuery

open Pagination

/-! ## Sessions -/

/-- A computation that may change the details that a query remembers. -/
def Session (α : Type) : Type := Option Details → Traced α × Option Details

namespace Session

variable {α β : Type}

/-- Go on with a result if there is one. -/
def andThen (x : Session α) (f : α → Session β) : Session β := fun remembered =>
  let (first, remembered) := x remembered
  match first.result with
  | .ok a =>
    let (second, remembered) := f a remembered
    (⟨second.result, first.entries ++ second.entries⟩, remembered)
  | .error e => (⟨.error e, first.entries⟩, remembered)

instance : Monad Session where
  pure a := fun remembered => (pure a, remembered)
  bind := andThen

/-- A computation that leaves the remembered details alone. -/
def ofTraced (t : Traced α) : Session α := fun remembered => (t, remembered)

/-- Remember details in place of those before. -/
def remember (details : Details) : Session Unit := fun _ => (pure (), some details)

/-- A computation with its log written down. Where an event cannot be written, the details from
before remain: the numbers of a page are logged ahead of its details. -/
def written (x : Session α) : Session α := fun remembered =>
  let (t, after) := x remembered
  if t.entries.all (·.isWritable) then (t, after) else (t.written, remembered)

theorem run_bind_of_ok {x : Session α} {f : α → Session β} {before : Option Details} {a : α}
    (h : (x before).1.result = .ok a) :
    (x >>= f) before =
      (⟨(f a (x before).2).1.result, (x before).1.entries ++ (f a (x before).2).1.entries⟩,
        (f a (x before).2).2) := by
  show andThen x f before = _
  simp only [andThen, h]

theorem run_bind_of_error {x : Session α} {f : α → Session β} {before : Option Details}
    {e : QueryError} (h : (x before).1.result = .error e) :
    (x >>= f) before = (⟨.error e, (x before).1.entries⟩, (x before).2) := by
  show andThen x f before = _
  simp only [andThen, h]

end Session

/-! ## Queries -/

/-- A request over a collection. -/
structure Query (C : Type) where
  collection : C
  /-- The parameters of the request. -/
  params : Value
  rules : QueryRules C
  settings : Settings
  /-- The address that links start with. -/
  base : Option String
  /-- The name of the query, for the log. -/
  name : String

namespace Query

variable {C : Type}

/-- A parameter of the request, absent if it is not given. -/
def param (q : Query C) (name : String) : Except QueryError Value :=
  if q.params.isTruthy then
    (q.params.entriesFor "get").map fun entries => (Value.lookup? name entries).getD .null
  else .ok .null

/-- The given parameter, or that of the request if none is given. -/
def paramOr (q : Query C) (name : String) (given : Value) : Except QueryError Value :=
  if given.isNull then q.param name else .ok given

/-- The parameters of the request with another `page` parameter. -/
def paramsWithPage (q : Query C) (page : Value) : Except QueryError Value :=
  if page.isNull then .ok q.params
  else if !q.params.isTruthy then .ok (.ofFields [("page", page)])
  else
    match q.params with
    | .map entries => .ok (.map (Value.put (.str "page") page entries))
    | _ => .error .wrongKind

variable [Collection C]

/-- The sort stage. -/
def sort (q : Query C) (given : Value) (collection : Selection C) : Traced (Selection C) := do
  q.rules.sort q.settings (← Traced.ofExcept (q.paramOr "sort" given)) collection

/-- The include stage. -/
def includes (q : Query C) (given : Value) (collection : Selection C) : Traced (Selection C) := do
  includeRequested (← Traced.ofExcept (q.paramOr "include" given)) collection

/-- The filter stage. -/
def filter (q : Query C) (given : Value) (collection : Selection C) : Traced (Selection C) := do
  q.rules.filter (← Traced.ofExcept (q.paramOr "filter" given)) collection

/-- A page and its details. -/
def page (q : Query C) (given : Value) (collection : Selection C) :
    Traced (Selection C × Details) := do
  let params ← Traced.ofExcept (q.paramsWithPage given)
  let pager ← Traced.ofExcept (Pager.make q.rules.paginator params q.settings q.base)
  pager.paginate collection

/-- The page stage. Details are remembered only with the records of their page. -/
def paginate (q : Query C) (given : Value) (collection : Selection C) : Session (Selection C) := do
  let (records, details) ← Session.ofTraced (q.page given collection)
  Session.remember details
  return records

/-- A single stage, with the parameter of the request or the one that is given in its place. -/
def stage (q : Query C) (s : Stage) (given : Value) (collection : Selection C) :
    Session (Selection C) :=
  match s with
  | .sort => Session.ofTraced (q.sort given collection)
  | .include => Session.ofTraced (q.includes given collection)
  | .filter => Session.ofTraced (q.filter given collection)
  | .paginate => q.paginate given collection

/-- A stage as part of all of them. -/
def runStage (q : Query C) (collection : Selection C) (s : Stage) : Session (Selection C) := do
  Session.ofTraced (Traced.log (.runningStage q.name s.name))
  q.stage s .null collection

/-- All stages one after the other. -/
def results (q : Query C) : Session (Selection C) :=
  q.settings.pipeline.foldlM q.runStage (.live q.collection)

/-! ## Single records -/

/-- The first record that satisfies the equations, with what the request includes. -/
def findBy (q : Query C) (criteria : List (String × Value)) : Traced Value :=
  if usesReservedName criteria then .fail .wrongKind
  else do Collection.findBy criteria (← q.includes .null (.live q.collection))

/-- The record with an identifier. -/
def find (q : Query C) (id : Value) : Traced Value := q.findBy [("id", id)]

/-- The record that the request identifies. -/
def record (q : Query C) : Traced Value := do q.find (← Traced.ofExcept (q.param "id"))

end Query

/-! ## Operations -/

/-- Anything that a query is asked to do. -/
inductive Operation (C : Type) where
  | results
  /-- A single stage on a selection, with a parameter that may stand in for the request's. -/
  | stage (s : Stage) (given : Value) (input : Selection C)
  | find (id : Value)
  | record
  | findBy (criteria : List (String × Value))

/-- What an operation comes to. -/
inductive Outcome (C : Type) where
  | selection (s : Selection C)
  | row (v : Value)

/-- Do what is asked. -/
def Query.serve {C : Type} [Collection C] (q : Query C) : Operation C → Session (Outcome C)
  | .results => do return .selection (← q.results)
  | .stage s given input => do return .selection (← q.stage s given input)
  | .find id => do return .row (← Session.ofTraced (q.find id))
  | .record => do return .row (← Session.ofTraced q.record)
  | .findBy criteria => do return .row (← Session.ofTraced (q.findBy criteria))

end ResourceQuery
